import Mathlib.Data.List.Forall2
import Autobahn.Session.Correlation
import Autobahn.Session.Provenance

/-!
# Calls through a router

Any number of sessions and a router between them that relays calls: a CALL
becomes one INVOCATION of a session that has registered the procedure, and a
YIELD comes back once as a RESULT. `Net` is the sessions with what the router
remembers, `Net.Step` whatever may happen next.

While ids last no reply goes astray (`Net.Reachable.noCrossTalk`). Once a
session has taken 2^64 of them an id can name two calls at a time, and one is
resolved with the result of the other (`not_noCrossTalk`).
-/

namespace Autobahn

open Foundation MsgPack Relation

/-! ## The network -/

/-- A REGISTERED that was delivered: to which session, with which id, and for
which of its writes. -/
structure Registration where
  callee : Nat
  id : UInt64
  register : Nat

/-- A CALL that was relayed: whose it was and which of the writes, by which
registration, and the request id of the INVOCATION. -/
structure Relay where
  caller : Nat
  call : Nat
  registration : Registration
  invocation : UInt64

def Relay.callee (ρ : Relay) : Nat := ρ.registration.callee

/-- The sessions and the router's memory: the registrations, the newest one
first, the calls relayed, and which of them came back with which write of the
callee. -/
structure Net where
  clients : Nat → Client
  registrations : List Registration := []
  relays : List Relay := []
  returns : List (Relay × Nat) := []

/-- Messages that a router makes only of what a session has sent. -/
def Incoming.isRelayed : Incoming → Bool
  | .registered .. | .invocation .. | .result .. => true
  | _ => false

def Input.isRelayed : Input → Bool
  | .message obj _ => (Incoming.read obj).isRelayed
  | _ => false

namespace Net

/-- One session takes a step. -/
def act (N : Net) (k : Nat) (i : Input) : Net :=
  { N with clients := Machine.stepAt Client.step N.clients k i }

/-- The registration that an id of a session stands for: the last one it was
given that id for. -/
def route (N : Net) (k : Nat) (g : UInt64) : Option Registration :=
  N.registrations.find? fun x => x.callee = k ∧ x.id = g

open MessageType in
/-- A step of the network. The router delivers to sessions that exist, reads
only what has been written, and is bound to no order. -/
inductive Step : Net → Net → Prop
  /-- a session on its own, or a message that has no part in a call: a task, an
  operation, a reply through a handle, a WELCOME, an ERROR, the end -/
  | act {N : Net} (k : Nat) {i : Input} (hi : i.isRelayed = false) :
      Step N (N.act k i)
  | register {N : Net} {k n : Nat} {r : UInt64} {options : Object}
      {name : Octets} (g : UInt64) (user : UserCode)
      (halive : (N.clients k).alive = true)
      (hread : (N.clients k).reads n =
        some (REGISTER.object [.positiveInteger r, options, .str name])) :
      Step N { N.act k (.message
          (REGISTERED.object [.positiveInteger r, .positiveInteger g]) user) with
        registrations := ⟨k, g, n⟩ :: N.registrations }
  | invoke {N : Net} {k n : Nat} {r r' : UInt64} {options options' : Object}
      {name : Octets} {rest : List Object} {x : Registration} (i : UInt64)
      (details : List (Object × Object)) (user : UserCode)
      (halive : (N.clients x.callee).alive = true)
      (hread : (N.clients k).reads n =
        some (CALL.object (.positiveInteger r :: options :: .str name :: rest)))
      (honce : ∀ ρ ∈ N.relays, ¬ (ρ.caller = k ∧ ρ.call = n))
      (hroute : N.route x.callee x.id = some x)
      (hname : (N.clients x.callee).reads x.register =
        some (REGISTER.object [.positiveInteger r', options', .str name]))
      (hfresh : ∀ ρ ∈ N.relays, ρ.callee = x.callee → ρ.invocation ≠ i) :
      Step N { N.act x.callee (.message (INVOCATION.object (.positiveInteger i ::
          .positiveInteger x.id :: .map details :: rest)) user) with
        relays := N.relays ++ [⟨k, n, x, i⟩] }
  | result {N : Net} (ρ : Relay) {w : Nat} {r : UInt64} {options : Object}
      {message rest : List Object} (details : List (Object × Object))
      (user : UserCode) (halive : (N.clients ρ.caller).alive = true)
      (hmem : ρ ∈ N.relays) (honce : ∀ w, (ρ, w) ∉ N.returns)
      (hread : (N.clients ρ.callee).reads w = some (YIELD.object
        (.positiveInteger ρ.invocation :: options :: rest)))
      (hcall : (N.clients ρ.caller).reads ρ.call =
        some (CALL.object (.positiveInteger r :: message))) :
      Step N { N.act ρ.caller (.message (RESULT.object (.positiveInteger r ::
          .map details :: rest)) user) with
        returns := (ρ, w) :: N.returns }

/-- New sessions on any streams. -/
def new (plans : Nat → Nat → WriteResult) : Net where
  clients k := Client.new (plans k)

def Reachable (N : Net) : Prop := ∃ plans, ReflTransGen Step (new plans) N

/-! ## No cross-talk -/

/-- What the INVOCATION of a relayed call did at its callee. -/
structure Runs (N : Net) (ρ : Relay) (run : WampProcedure × Nat) : Prop where
  registered : ρ.registration ∈ N.registrations
  /-- the procedure is the one of the `provide` with that registration, its
  name the one of the `call`, and what it was given what the `call` packed -/
  payload : ∃ (name : Octets) (options : List (Octets × Object)) (p : Payload)
    (arguments kwArguments : Object),
    (N.clients ρ.callee).Asked ρ.registration.register
      (.provide name run.1 options) ∧
    (N.clients ρ.caller).Asked ρ.call (.call name p) ∧
    (N.clients ρ.callee).heard[run.2]? =
      some (ρ.invocation, arguments, kwArguments) ∧
    p.Carries arguments kwArguments

/-- The value of a call's future is the reply to the call's own INVOCATION. -/
def Resolved (N : Net) (k : Nat) (q : Request) (value : WampCallResult) : Prop :=
  ∃ ρ w run, (ρ, w) ∈ N.returns ∧ ρ.caller = k ∧ (N.clients k).Wrote ρ.call q ∧
    run ∈ (N.clients ρ.callee).ran ∧ N.Runs ρ run ∧
    (N.clients ρ.callee).Yielded w run.2 value

structure NoCrossTalk (N : Net) : Prop where
  /-- the calls relayed to a session and the procedures it ran, one for one -/
  runs : ∀ k, List.Forall₂ N.Runs (N.relays.filter (·.callee = k))
    (N.clients k).ran
  resolved : ∀ (k : Nat) (q : Request) (value : WampCallResult),
    q ∈ (N.clients k).requests → q.promise.outcome = some (.ok (.result value)) →
    N.Resolved k q value

/-! ## What a step keeps -/

/-- Nothing that has happened is forgotten. -/
structure Grows (N M : Net) : Prop where
  client : ∀ k, (N.clients k).Grows (M.clients k)
  keeps : ∀ k, (N.clients k).Keeps (M.clients k)
  heard : ∀ k, (N.clients k).heard <+: (M.clients k).heard
  ran : ∀ k, (N.clients k).ran <+: (M.clients k).ran
  registrations : N.registrations ⊆ M.registrations
  returns : N.returns ⊆ M.returns

section Keep

variable {N M : Net} {k : Nat} {i : Input}

theorem act_clients (N : Net) (k : Nat) (i : Input) :
    (N.act k i).clients = Machine.stepAt Client.step N.clients k i := rfl

theorem Grows.of_act (hclients : M.clients = Machine.stepAt Client.step N.clients k i)
    (hheard : (N.clients k).heard <+: ((N.clients k).step i).heard)
    (hran : (N.clients k).ran <+: ((N.clients k).step i).ran)
    (hregistrations : N.registrations ⊆ M.registrations)
    (hreturns : N.returns ⊆ M.returns) : N.Grows M where
  client := Machine.stepAt_rel hclients (Client.step_grows _ i) .refl
  keeps := Machine.stepAt_rel hclients (.step _ i) .refl
  heard := Machine.stepAt_rel (R := fun c d => c.heard <+: d.heard) hclients
    hheard fun _ => List.prefix_refl _
  ran := Machine.stepAt_rel (R := fun c d => c.ran <+: d.ran) hclients
    hran fun _ => List.prefix_refl _
  registrations := hregistrations
  returns := hreturns

theorem Runs.mono {ρ : Relay} {run : WampProcedure × Nat} (h : N.Runs ρ run)
    (hgrows : N.Grows M) : M.Runs ρ run := by
  obtain ⟨hregistered, name, options, p, a, kw, hprovide, hcall, hheard,
    hcarries⟩ := h
  exact ⟨hgrows.registrations hregistered, name, options, p, a, kw,
    hprovide.mono (hgrows.client _), hcall.mono (hgrows.client _),
    getElem?_of_isPrefix (hgrows.heard _) hheard, hcarries⟩

theorem Resolved.mono {q q' : Request} {value : WampCallResult}
    (h : N.Resolved k q value) (hreachable : ∀ k, (N.clients k).Reachable)
    (hgrows : N.Grows M) (hq' : q' ∈ (M.clients k).requests) (hages : q.Ages q') :
    M.Resolved k q' value := by
  obtain ⟨ρ, w, run, hreturn, hcaller, hwrote, hran, hruns, hyielded⟩ := h
  refine ⟨ρ, w, run, hgrows.returns hreturn, hcaller, ⟨hq', ?_⟩,
    (hgrows.ran _).subset hran, hruns.mono hgrows, ?_⟩
  · rw [hages.buffer]
    exact getElem?_of_isPrefix (hgrows.client k).writes hwrote.2
  · exact hyielded.mono (hreachable _).replying (hgrows.client _) (hgrows.keeps _)

/-- Results stay what they are, so only one that is new has to be looked at. -/
theorem NoCrossTalk.resolved_act (hN : N.NoCrossTalk)
    (hreachable : ∀ k, (N.clients k).Reachable) (hgrows : N.Grows M)
    (hclients : M.clients = Machine.stepAt Client.step N.clients k i)
    (hnew : ∀ (ref : Nat) (q : Request) (value : WampCallResult) obj user,
      (M.clients k).requests[ref]? = some q → i = .message obj user →
      Incoming.read obj = .result q.requestId value → M.Resolved k q value)
    (j : Nat) (q : Request) (value : WampCallResult)
    (hq : q ∈ (M.clients j).requests)
    (ho : q.promise.outcome = some (.ok (.result value))) :
    M.Resolved j q value := by
  by_cases hj : j = k
  · subst hj
    obtain ⟨ref, href⟩ := List.mem_iff_getElem?.mp hq
    have hstep : ((N.clients j).step i).requests[ref]? = some q := by
      rwa [hclients, Machine.stepAt_self] at href
    rcases Client.step_result (hreachable j).coherent hstep ho with
      ⟨q₀, hq₀, hages, ho₀⟩ | ⟨obj, user, hi, hread⟩
    · exact (hN.resolved j q₀ value (List.mem_of_getElem? hq₀) ho₀).mono
        hreachable hgrows hq hages
    · exact hnew ref q value obj user href hi hread
  · have hold : q ∈ (N.clients j).requests := by
      rwa [hclients, Machine.stepAt_of_ne hj] at hq
    exact (hN.resolved j q value hold ho).mono hreachable hgrows hq (.refl q)

end Keep

/-! ## The invariant -/

/-- Under this id the session has the procedure that the `provide` of this
registration was given. -/
def Installed (N : Net) (k : Nat) (g : UInt64) (x : Registration) : Prop :=
  ∃ name p options, (N.clients k).session.procedures.find g = some p ∧
    (N.clients k).Asked x.register (.provide name p options)

/-- No cross-talk, and what keeps it so: a session has the procedure of every
registration a CALL can be routed to, and the request id of an INVOCATION names
one relay. -/
structure Sound (N : Net) : Prop where
  reachable : ∀ k, (N.clients k).Reachable
  installed : ∀ k g x, N.route k g = some x → N.Installed k g x
  distinct : ∀ ρ ∈ N.relays, ∀ ρ' ∈ N.relays, ρ.callee = ρ'.callee →
    ρ.invocation = ρ'.invocation → ρ = ρ'
  calls : N.NoCrossTalk

section Sound

variable {N M : Net} {k : Nat} {i : Input}

theorem Sound.reachable_act (hN : N.Sound)
    (hclients : M.clients = Machine.stepAt Client.step N.clients k i) (j : Nat) :
    (M.clients j).Reachable :=
  Machine.forall_stepAt (P := fun _ c => c.Reachable) hclients
    ((hN.reachable k).step i) hN.reachable j

theorem Installed.mono {j : Nat} {g : UInt64} {x : Registration}
    (h : N.Installed j g x) (hgrows : N.Grows M)
    (hprocedures : (M.clients j).session.procedures.find g =
      (N.clients j).session.procedures.find g) : M.Installed j g x := by
  obtain ⟨name, p, options, hp, hasked⟩ := h
  exact ⟨name, p, options, hprocedures.trans hp, hasked.mono (hgrows.client j)⟩

/-- Steps in which nothing is registered. -/
theorem Sound.installed_act (hN : N.Sound) (hgrows : N.Grows M)
    (hclients : M.clients = Machine.stepAt Client.step N.clients k i)
    (hprocedures : ((N.clients k).step i).session.procedures =
      (N.clients k).session.procedures)
    (hregistrations : M.registrations = N.registrations) (j : Nat) (g : UInt64)
    (x : Registration) (hroute : M.route j g = some x) : M.Installed j g x := by
  rw [route, hregistrations] at hroute
  apply (hN.installed j g x hroute).mono hgrows
  rw [Machine.stepAt_rel (R := fun c d => d.session.procedures =
    c.session.procedures) hclients hprocedures (fun _ => rfl) j]

/-- Steps in which no call is relayed. -/
theorem Sound.runs_act (hN : N.Sound) (hgrows : N.Grows M)
    (hclients : M.clients = Machine.stepAt Client.step N.clients k i)
    (hran : ((N.clients k).step i).ran = (N.clients k).ran)
    (hrelays : M.relays = N.relays) (j : Nat) :
    List.Forall₂ M.Runs (M.relays.filter (·.callee = j)) (M.clients j).ran := by
  have hold := (hN.calls.runs j).imp fun _ _ h => h.mono hgrows
  rw [hrelays, Machine.stepAt_rel (R := fun c d => d.ran = c.ran) hclients
    hran (fun _ => rfl) j]
  exact hold

/-- Steps that neither install nor run a procedure. -/
theorem Sound.of_unheard (hN : N.Sound)
    (hclients : M.clients = Machine.stepAt Client.step N.clients k i)
    (hunheard : (N.clients k).Unheard ((N.clients k).step i))
    (hregistrations : M.registrations = N.registrations)
    (hrelays : M.relays = N.relays) (hreturns : N.returns ⊆ M.returns)
    (hnew : N.Grows M → ∀ (ref : Nat) (q : Request) (value : WampCallResult) obj
      user, (M.clients k).requests[ref]? = some q → i = .message obj user →
      Incoming.read obj = .result q.requestId value → M.Resolved k q value) :
    M.Sound := by
  have hgrows : N.Grows M := .of_act hclients
    (hunheard.heard ▸ List.prefix_refl _) (hunheard.ran ▸ List.prefix_refl _)
    (hregistrations ▸ List.Subset.refl _) hreturns
  exact ⟨hN.reachable_act hclients,
    hN.installed_act hgrows hclients hunheard.procedures hregistrations,
    hrelays ▸ hN.distinct, hN.runs_act hgrows hclients hunheard.ran hrelays,
    hN.calls.resolved_act hN.reachable hgrows hclients (hnew hgrows)⟩

theorem Sound.act (hN : N.Sound) (hi : i.isRelayed = false) :
    (N.act k i).Sound := by
  refine hN.of_unheard rfl ((N.clients k).step_unheard fun obj user heq => ?_)
    rfl rfl (List.Subset.refl _) fun _ ref q value obj user _ heq hread => ?_
  · subst heq
    rw [Input.isRelayed] at hi
    cases hread : Incoming.read obj <;> rw [hread] at hi <;>
      first | rfl | cases hi
  · subst heq
    rw [Input.isRelayed, hread] at hi
    cases hi

theorem route_cons (x : Registration) (j : Nat) (g : UInt64)
    (hregistrations : M.registrations = x :: N.registrations) :
    M.route j g = if x.callee = j ∧ x.id = g then some x else N.route j g := by
  rw [route, hregistrations, List.find?_cons]
  split
  · next h => rw [if_pos (by simpa using h)]
  · next h =>
    rw [if_neg (by simpa using h)]
    rfl

theorem Sound.register (hN : N.Sound) {n : Nat} {r g : UInt64} {options : Object}
    {name : Octets} {user : UserCode} (hlt : (N.clients k).issued < UInt64.size)
    (halive : (N.clients k).alive = true)
    (hread : (N.clients k).reads n = some (MessageType.REGISTER.object
      [.positiveInteger r, options, .str name]))
    (hi : i = .message (MessageType.REGISTERED.object
      [.positiveInteger r, .positiveInteger g]) user) :
    ({ N.act k i with
        registrations := ⟨k, g, n⟩ :: N.registrations } : Net).Sound := by
  -- the REGISTERED finds the entry of the very `provide` it answers
  obtain ⟨p, options', ref, hasked, hentry⟩ :=
    (hN.reachable k).wrote_register hlt hread
  have hreg : Incoming.read (MessageType.REGISTERED.object
      [.positiveInteger r, .positiveInteger g]) = .registered r g :=
    read_object .REGISTERED _
  have hunheard := Client.step_registered halive hreg hentry user
  rw [← hi] at hunheard
  have hgrows : N.Grows
      { N.act k i with registrations := ⟨k, g, n⟩ :: N.registrations } :=
    .of_act rfl (hunheard.heard ▸ List.prefix_refl _)
      (hunheard.ran ▸ List.prefix_refl _) (List.subset_cons_self _ _)
      (List.Subset.refl _)
  refine ⟨hN.reachable_act rfl, fun j g' x hroute => ?_, hN.distinct,
    hN.runs_act hgrows rfl hunheard.ran rfl,
    hN.calls.resolved_act hN.reachable hgrows rfl ?_⟩
  · rw [route_cons ⟨k, g, n⟩ j g' rfl] at hroute
    split at hroute
    · next h =>
      obtain ⟨rfl, rfl⟩ := h
      obtain rfl := Option.some.inj hroute
      refine ⟨name, p, options', ?_, hasked.mono (hgrows.client _)⟩
      show ((N.act _ i).clients _).session.procedures.find _ = _
      rw [act_clients, Machine.stepAt_self, hunheard.procedures]
      simp [Client.installProcedure, Client.setSession, Table.find_assign]
    · next h =>
      apply (hN.installed j g' x hroute).mono hgrows
      show ((N.act k i).clients j).session.procedures.find g' = _
      by_cases hj : j = k
      · subst hj
        have hg : g' ≠ g := fun hg => h ⟨rfl, hg.symm⟩
        rw [act_clients, Machine.stepAt_self, hunheard.procedures]
        simp [Client.installProcedure, Client.setSession, Table.find_assign, hg]
      · rw [act_clients, Machine.stepAt_of_ne hj]
  · intro ref q value obj user' _ heq hres
    rw [hi] at heq
    obtain ⟨rfl, -⟩ := Input.message.inj heq
    rw [hreg] at hres
    cases hres

theorem read_result {r r' : UInt64} {details : List (Object × Object)}
    {rest : List Object} {value : WampCallResult}
    (h : Incoming.read (MessageType.RESULT.object
      (.positiveInteger r :: .map details :: rest)) = .result r' value) :
    r' = r ∧ readPayload rest = some (value.arguments, value.kwArguments) := by
  rw [read_object, readFields, readResult] at h
  split at h
  · next a kw hrest =>
    obtain ⟨rfl, rfl⟩ := Incoming.result.inj h
    exact ⟨rfl, hrest⟩
  · cases h

/-- A YIELD that names a relay's INVOCATION is the reply to that relay. -/
theorem Sound.replied (hN : N.Sound) {ρ : Relay} (hρ : ρ ∈ N.relays) {w : Nat}
    {options : Object} {rest : List Object}
    (hread : (N.clients ρ.callee).reads w = some (MessageType.YIELD.object
      (.positiveInteger ρ.invocation :: options :: rest)))
    {value : WampCallResult}
    (hrest : readPayload rest = some (value.arguments, value.kwArguments)) :
    ∃ run, run ∈ (N.clients ρ.callee).ran ∧ N.Runs ρ run ∧
      (N.clients ρ.callee).Yielded w run.2 value := by
  have hc := hN.reachable ρ.callee
  obtain ⟨h, v, hv, hid, hyielded⟩ := hc.wrote_yield hread hrest
  have hheard : (N.clients ρ.callee).heard[h]? = some v.heard := by
    rw [Client.heard, List.getElem?_map, hv]
    rfl
  -- that invocation was run for some relay, and its id names only one
  obtain ⟨p, hran⟩ := hc.numbered.exists_ran hheard
  obtain ⟨ρ', hρ', hruns⟩ := exists_of_forall₂ (hN.calls.runs ρ.callee) hran
  obtain ⟨hmem, hcallee⟩ := List.mem_filter.mp hρ'
  have hcallee : ρ'.callee = ρ.callee := by simpa using hcallee
  obtain ⟨_, _, _, _, _, -, -, hheard', -⟩ := hruns.payload
  have hinvocation : ρ'.invocation = ρ.invocation := by
    rw [hcallee, hheard] at hheard'
    exact ((Prod.mk.inj (Option.some.inj hheard')).1.symm).trans hid
  obtain rfl := hN.distinct ρ' hmem ρ hρ hcallee hinvocation
  exact ⟨(p, h), hran, hruns, hyielded⟩

theorem Sound.result (hN : N.Sound) {ρ : Relay} {w : Nat} {r : UInt64}
    {options : Object} {message rest : List Object}
    {details : List (Object × Object)} {user : UserCode}
    (hlt : ((N.clients ρ.caller).step i).issued < UInt64.size)
    (hρ : ρ ∈ N.relays)
    (hread : (N.clients ρ.callee).reads w = some (MessageType.YIELD.object
      (.positiveInteger ρ.invocation :: options :: rest)))
    (hcall : (N.clients ρ.caller).reads ρ.call =
      some (MessageType.CALL.object (.positiveInteger r :: message)))
    (hi : i = .message (MessageType.RESULT.object
      (.positiveInteger r :: .map details :: rest)) user) :
    ({ N.act ρ.caller i with returns := (ρ, w) :: N.returns } : Net).Sound := by
  refine hN.of_unheard rfl ((N.clients ρ.caller).step_unheard
    fun obj user' heq => ?_) rfl rfl (List.subset_cons_self _ _) ?_
  · rw [hi] at heq
    obtain ⟨rfl, -⟩ := Input.message.inj heq
    rw [read_object, readFields, readResult]
    split <;> rfl
  · intro hgrows ref q value obj user' hq heq hres
    rw [hi] at heq
    obtain ⟨rfl, -⟩ := Input.message.inj heq
    obtain ⟨hid, hrest⟩ := read_result hres
    obtain ⟨run, hran, hruns, hyielded⟩ := hN.replied hρ hread hrest
    refine ⟨ρ, w, run, List.mem_cons_self, rfl, ?_,
      (hgrows.ran _).subset hran, hruns.mono hgrows,
      hyielded.mono (hN.reachable _).replying (hgrows.client _) (hgrows.keeps _)⟩
    -- the request that the id names is the one that wrote the CALL
    obtain ⟨_, _, _, _, _, -, ⟨q₀, hwrote, -⟩, -⟩ := hruns.payload
    have hid₀ := hwrote.requestId_eq (hN.reachable ρ.caller).coherent rfl hcall
    obtain ⟨q₁, hwrote₁, hages⟩ := hwrote.mono (hgrows.client ρ.caller)
    obtain ⟨ref₁, href₁⟩ := List.mem_iff_getElem?.mp hwrote₁.1
    have hfresh := (hN.reachable_act (M := { N.act ρ.caller i with
      returns := (ρ, w) :: N.returns }) rfl ρ.caller).fresh
      (by simpa only [act_clients, Machine.stepAt_self] using hlt)
    obtain rfl := hfresh.inj href₁ hq
      ((hages.requestId.trans hid₀).trans hid.symm)
    obtain rfl := Option.some.inj (href₁.symm.trans hq)
    exact hwrote₁

/-- The step that runs a procedure: the relay and the run go together. -/
theorem Sound.runs_invoke (hN : N.Sound) (hgrows : N.Grows M) (ρ : Relay)
    (hclients : M.clients = Machine.stepAt Client.step N.clients ρ.callee i)
    (hrelays : M.relays = N.relays ++ [ρ]) {run : WampProcedure × Nat}
    (hran : ((N.clients ρ.callee).step i).ran = (N.clients ρ.callee).ran ++ [run])
    (hruns : M.Runs ρ run) (j : Nat) :
    List.Forall₂ M.Runs (M.relays.filter (·.callee = j)) (M.clients j).ran := by
  have hold := (hN.calls.runs j).imp fun _ _ h => h.mono hgrows
  rw [hrelays, List.filter_append, hclients]
  by_cases hj : j = ρ.callee
  · subst hj
    rw [Machine.stepAt_self, hran]
    apply List.rel_append hold
    rw [List.filter_singleton, decide_eq_true rfl]
    exact .cons hruns .nil
  · rw [Machine.stepAt_of_ne hj, List.filter_singleton, decide_eq_false (Ne.symm hj)]
    simpa using hold

theorem distinct_snoc {ρ : Relay} (hdistinct : ∀ ρ ∈ N.relays, ∀ ρ' ∈ N.relays,
      ρ.callee = ρ'.callee → ρ.invocation = ρ'.invocation → ρ = ρ')
    (hfresh : ∀ ρ' ∈ N.relays, ρ'.callee = ρ.callee →
      ρ'.invocation ≠ ρ.invocation) :
    ∀ ρ₁ ∈ N.relays ++ [ρ], ∀ ρ₂ ∈ N.relays ++ [ρ], ρ₁.callee = ρ₂.callee →
      ρ₁.invocation = ρ₂.invocation → ρ₁ = ρ₂ := by
  intro ρ₁ h₁ ρ₂ h₂ hcallee hid
  rcases List.mem_append.mp h₁ with hold₁ | hnew₁ <;>
    rcases List.mem_append.mp h₂ with hold₂ | hnew₂
  · exact hdistinct ρ₁ hold₁ ρ₂ hold₂ hcallee hid
  · obtain rfl := List.mem_singleton.mp hnew₂
    exact absurd hid (hfresh ρ₁ hold₁ hcallee)
  · obtain rfl := List.mem_singleton.mp hnew₁
    exact absurd hid.symm (hfresh ρ₂ hold₂ hcallee.symm)
  · rw [List.mem_singleton.mp hnew₁, List.mem_singleton.mp hnew₂]

theorem read_invocation (j g : UInt64) (details : List (Object × Object))
    {rest : List Object} {arguments kwArguments : Object}
    (hrest : readPayload rest = some (arguments, kwArguments)) :
    Incoming.read (MessageType.INVOCATION.object (.positiveInteger j ::
      .positiveInteger g :: .map details :: rest)) =
      .invocation g j (.map details) arguments kwArguments := by
  rw [read_object, readFields, readInvocation, hrest]

theorem Sound.invoke (hN : N.Sound) {n : Nat} {r r' j : UInt64}
    {options options' : Object} {name : Octets} {rest : List Object}
    {x : Registration} {details : List (Object × Object)} {user : UserCode}
    (halive : (N.clients x.callee).alive = true)
    (hread : (N.clients k).reads n = some (MessageType.CALL.object
      (.positiveInteger r :: options :: .str name :: rest)))
    (hroute : N.route x.callee x.id = some x)
    (hname : (N.clients x.callee).reads x.register = some
      (MessageType.REGISTER.object [.positiveInteger r', options', .str name]))
    (hfresh : ∀ ρ ∈ N.relays, ρ.callee = x.callee → ρ.invocation ≠ j)
    (hi : i = .message (MessageType.INVOCATION.object (.positiveInteger j ::
      .positiveInteger x.id :: .map details :: rest)) user) :
    ({ N.act x.callee i with
        relays := N.relays ++ [⟨k, n, x, j⟩] } : Net).Sound := by
  obtain ⟨q, payload, hwrote, -, hcall, hobjects⟩ :=
    (hN.reachable k).wrote_call hread
  obtain ⟨a, kw, hrest, hcarries⟩ := payload.readPayload_objects hobjects
  obtain ⟨name', p, options'', hp, hasked⟩ := hN.installed _ _ x hroute
  obtain rfl := hasked.name_eq (hN.reachable x.callee).coherent hname
  have hinvocation := read_invocation j x.id details hrest
  obtain ⟨hheard, hran, hprocedures⟩ :=
    Client.step_invocation halive hinvocation hp user
  rw [← hi] at hheard hran hprocedures
  have hgrows : N.Grows
      { N.act x.callee i with relays := N.relays ++ [⟨k, n, x, j⟩] } :=
    .of_act rfl (hheard ▸ List.prefix_append _ _) (hran ▸ List.prefix_append _ _)
      (List.Subset.refl _) (List.Subset.refl _)
  refine ⟨hN.reachable_act rfl, hN.installed_act hgrows rfl hprocedures rfl,
    distinct_snoc hN.distinct hfresh,
    hN.runs_invoke hgrows ⟨k, n, x, j⟩ rfl rfl hran ?_,
    hN.calls.resolved_act hN.reachable hgrows rfl ?_⟩
  · refine ⟨List.mem_of_find?_eq_some hroute, name, options'', payload, a, kw,
      hasked.mono (hgrows.client _),
      Client.Asked.mono ⟨q, hwrote, hcall⟩ (hgrows.client k), ?_, hcarries⟩
    show ((N.act x.callee i).clients x.callee).heard[_]? = _
    rw [act_clients, Machine.stepAt_self, hheard]
    exact List.getElem?_concat_length
  · intro ref q value obj user' _ heq hres
    rw [hi] at heq
    obtain ⟨rfl, -⟩ := Input.message.inj heq
    rw [hinvocation] at hres
    cases hres

theorem Step.issued_le (h : N.Step M) (j : Nat) :
    (N.clients j).issued ≤ (M.clients j).issued := by
  have hact : ∀ (k : Nat) (i : Input),
      (N.clients j).issued ≤ ((N.act k i).clients j).issued := fun k i =>
    Machine.stepAt_rel (R := fun (c d : Client) => c.issued ≤ d.issued) rfl
      (Client.step_moves _ i).issued_le (fun _ => Nat.le_refl _) j
  cases h <;> exact hact _ _

theorem Sound.step (hN : N.Sound) (h : N.Step M)
    (hids : ∀ k, (M.clients k).issued < UInt64.size) : M.Sound := by
  have hids' := fun k => Nat.lt_of_le_of_lt (h.issued_le k) (hids k)
  cases h with
  | act k hi => exact hN.act hi
  | register g user halive hread =>
      exact hN.register (hids' _) halive hread rfl
  | invoke i details user halive hread honce hroute hname hfresh =>
      exact hN.invoke halive hread hroute hname hfresh rfl
  | result ρ details user halive hmem honce hread hcall =>
      have hlt := hids ρ.caller
      exact hN.result (by rwa [act_clients, Machine.stepAt_self] at hlt) hmem hread hcall rfl

theorem sound_new (plans : Nat → Nat → WriteResult) : (new plans).Sound where
  reachable k := Client.reachable_runs (plans k) []
  installed k g x h := by cases h
  distinct ρ h := by cases h
  calls :=
    { runs := fun k => .nil
      resolved := fun k q value h => by cases h }

theorem Reachable.sound (h : N.Reachable)
    (hids : ∀ k, (N.clients k).issued < UInt64.size) : N.Sound := by
  obtain ⟨plans, hsteps⟩ := h
  induction hsteps with
  | refl => exact sound_new plans
  | tail _ hstep ih =>
      exact (ih fun k => Nat.lt_of_le_of_lt (hstep.issued_le k) (hids k)).step
        hstep hids

end Sound

/-- **No cross-talk.** In whatever order sessions and router take their steps,
each INVOCATION runs the procedure its registration was made for, once, on what
the call packed, and a call that is resolved with a result has the reply to its
own INVOCATION. -/
theorem Reachable.noCrossTalk {N : Net} (h : N.Reachable)
    (hids : ∀ k, (N.clients k).issued < UInt64.size) : N.NoCrossTalk :=
  (h.sound hids).calls

/-! ## A call that goes through, and one that does not -/

/-- Session 0 has registered `com.f` and session 1 has joined. -/
def offered : Net :=
  let joined (id : UInt64) : Input :=
    .message (MessageType.WELCOME.object [.positiveInteger id]) fun _ => {}
  let N := ((((new fun _ _ => .complete).act 0 (joined 7)).act 0
    (.operate (.provide (octets "com.f") ⟨3⟩ []))).act 0 (.task 0)).act 1 (joined 8)
  { N.act 0 (.message (MessageType.REGISTERED.object
      [.positiveInteger 1, .positiveInteger 5]) fun _ => {}) with
    registrations := [⟨0, 5, 0⟩] }

theorem reachable_offered : offered.Reachable := by
  refine ⟨fun _ _ => .complete, ?_⟩
  refine .tail ?_ (Step.register (k := 0) (n := 0) 5 (fun _ => {}) rfl rfl)
  exact .tail (.tail (.tail (.single (Step.act 0 rfl)) (Step.act 0 rfl))
    (Step.act 0 rfl)) (Step.act 1 rfl)

/-- The procedure that replies at once, with one nil. -/
def nilProcedure : UserCode :=
  fun _ => { actions := [.respond 0 (.result (.list (.ok [.nil])))] }

/-- A call with one argument, answered. -/
theorem noCrossTalk_one_call : ∃ N : Net, N.Reachable ∧ N.NoCrossTalk ∧
    (N.clients 0).ran = [(⟨3⟩, 0)] ∧
    (N.clients 1).requests.map (fun q => q.promise.outcome) =
      [some (.ok (.result { arguments := .array [.nil] }))] := by
  obtain ⟨plans, h⟩ := reachable_offered
  have hcall := (h.tail (.act 1 (i := .operate
    (.call (octets "com.f") (.list (.ok [.str []])))) rfl)).tail
    (.act 1 (i := .task 0) rfl)
  have hinvoke := hcall.tail (.invoke (k := 1) (n := 0) (x := ⟨0, 5, 0⟩) 9 []
    nilProcedure rfl rfl (fun ρ hρ => by cases hρ) rfl rfl
    fun ρ hρ => by cases hρ)
  have hresult := hinvoke.tail (.result ⟨1, 0, ⟨0, 5, 0⟩, 9⟩ (w := 1) []
    (fun _ => {}) rfl (List.mem_singleton_self _) (fun w hw => by cases hw) rfl rfl)
  refine ⟨_, ⟨plans, hresult⟩, Reachable.noCrossTalk ⟨plans, hresult⟩ ?_, rfl, rfl⟩
  rintro (_ | _ | k)
  · decide
  · decide
  · exact Nat.zero_lt_of_lt (show 0 < UInt64.size by decide)

end Net

/-- A PUBLISH that cannot be packed: all it does is take an id. -/
def idling : Input := .operate (.publish [] (.list (.error .typeError)))

/-- `n` ids later. -/
def Client.idled (c : Client) (n : Nat) : Client :=
  { c with
    session := { c.session with
      requestId := c.session.requestId + UInt64.ofNat n }
    issued := c.issued + n }

theorem Client.step_idling {c : Client} (h : c.alive = true) :
    c.step idling = c.takeId := by
  have hneeds : ¬ (idling.needsSession = true ∧ ¬ c.alive = true) := by simp [h]
  rw [Client.step, if_neg hneeds]
  rfl

namespace Net

theorem Reachable.idled {N : Net} (h : N.Reachable) (k n : Nat)
    (halive : (N.clients k).alive = true) :
    ({ N with clients :=
        Function.update N.clients k ((N.clients k).idled n) } : Net).Reachable := by
  obtain ⟨plans, h⟩ := h
  refine ⟨plans, ?_⟩
  induction n with
  | zero => simpa [Client.idled] using h
  | succ n ih =>
      have hstep := ih.tail (.act k (i := idling) rfl)
      simp only [act, Machine.stepAt, Function.update_self, Function.update_idem] at hstep
      rw [Client.step_idling (c := (N.clients k).idled n) halive] at hstep
      simpa [Client.takeId, Client.idled, UInt64.ofNat_add, UInt64.add_assoc,
        Nat.add_assoc] using hstep

/-- A call without arguments waits under the id 1 while 2^64 - 1 more ids are
taken; the next call takes the id 1 again, and its result resolves the first. -/
theorem not_noCrossTalk : ¬ ∀ N : Net, N.Reachable → N.NoCrossTalk := by
  intro hall
  obtain ⟨plans, h⟩ := reachable_offered
  have hfirst := (h.tail (.act 1 (i := .operate
    (.call (octets "com.f") .none)) rfl)).tail (.act 1 (i := .task 0) rfl)
  obtain ⟨plans, hidled⟩ :=
    Reachable.idled ⟨plans, hfirst⟩ 1 18446744073709551615 rfl
  have hsecond := (hidled.tail (.act 1 (i := .operate
    (.call (octets "com.f") (.list (.ok [.str []])))) rfl)).tail
    (.act 1 (i := .task 0) rfl)
  have hinvoke := hsecond.tail (.invoke (k := 1) (n := 1) (x := ⟨0, 5, 0⟩) 9 []
    nilProcedure rfl rfl (fun ρ hρ => by cases hρ) rfl rfl
    fun ρ hρ => by cases hρ)
  have hresult := hinvoke.tail (.result ⟨1, 1, ⟨0, 5, 0⟩, 9⟩ (w := 1) []
    (fun _ => {}) rfl (List.mem_singleton_self _) (fun w hw => by cases hw) rfl rfl)
  -- the first call has a result, but the only CALL that came back is the second
  obtain ⟨ρ, w, run, hreturn, -, ⟨-, hw⟩, -⟩ :=
    (hall _ ⟨plans, hresult⟩).resolved 1 _ { arguments := .array [.nil] }
      (List.mem_of_getElem? (i := 0) rfl) rfl
  obtain ⟨rfl, -⟩ := Prod.mk.inj (List.mem_singleton.mp hreturn)
  have hlen := congrArg (Option.map fun w => w.1.length) hw
  exact absurd hlen (by decide)

end Net

end Autobahn
