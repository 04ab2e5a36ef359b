import Autobahn.Session.Callee
import Autobahn.Session.Events

/-!
# Registrations and invocations

The procedure of a registration id is the history of the REGISTERED messages that
carried it: the last of them decides (`procedures_runs`), and an INVOCATION runs
exactly that procedure (`invocation_callbacks`).

REGISTERED does not take its entry out of the table. So a provide can be answered
any number of times, under any registration ids, and each answer counts.
-/

namespace Autobahn

open Foundation MsgPack

/-! ## The history of a registration id -/

/-- The procedure passed to the provide operation whose task has run under the
request id `r` while joined, answered or not. -/
def Client.provider (c : Client) (r : UInt64) : Option WampProcedure :=
  c.requests.findSome? fun q =>
    match q.operation with
    | .provide _ procedure _ =>
        if q.requestId = r ∧ q.entered then some procedure else none
    | _ => none

/-- What this input installs under the registration id `g`. -/
def Client.installs (g : UInt64) (c : Client) : Input → List WampProcedure
  | .message obj _ =>
      match Incoming.read obj with
      | .registered r g' => if c.alive ∧ g' = g then (c.provider r).toList else []
      | _ => []
  | _ => []

/-- The same along a run, in the order of the REGISTERED messages. -/
abbrev Client.installed (g : UInt64) (c : Client) (is : List Input) :
    List WampProcedure :=
  Machine.collected Client.step (Client.installs g) c is

section

variable {c d : Client}

/-- A provide operation that has entered the table is there for good. -/
theorem Client.Registers.provide (hr : c.Registers) (hc : c.Coherent) {ref : Nat}
    {q : Request} (hq : c.requests[ref]? = some q) (hentered : q.entered = true)
    {name : Octets} {procedure : WampProcedure} {options : List (Octets × Object)}
    (hop : q.operation = .provide name procedure options) :
    ∃ e, c.session.registerRequests.find q.requestId = some e ∧ e.response = ref := by
  obtain ⟨entry, hm⟩ := hc.made q (List.mem_of_getElem? hq)
  have hkind : q.kind = .register := by
    have hsub := hm.submits
    rw [hm.kind]
    generalize q.buffer = buffer at hsub
    rw [hop] at hsub
    cases hsub
    rfl
  obtain ⟨entry', h⟩ := hr ref q hq hentered hkind
  simp only [WampSession.entryAt, Option.map_eq_some_iff, Prod.mk.injEq] at h
  obtain ⟨e, he, hresp, -⟩ := h
  exact ⟨e, he, hresp⟩

/-- The table of register requests knows who has provided. -/
theorem Client.Registers.provider_eq (hr : c.Registers) (hc : c.Coherent)
    (r : UInt64) :
    c.provider r =
      (c.session.registerRequests.find r).map WampRegisterRequest.procedure := by
  cases he : c.session.registerRequests.find r with
  | none =>
      refine List.findSome?_eq_none_iff.mpr fun q hq => ?_
      obtain ⟨ref, href⟩ := List.mem_iff_getElem?.mp hq
      split
      · next name procedure options hop =>
        split
        · next hcond =>
          obtain ⟨e, he', -⟩ := hr.provide hc href hcond.2 hop
          rw [hcond.1, he] at he'
          cases he'
        · rfl
      · rfl
  | some e =>
      obtain ⟨q, hq, hm, hid, hentered⟩ :=
        hc.entries (WampSession.entryAt_register he)
      obtain ⟨name, options, hop⟩ := hm.submits.eq_provide
      cases hfound : c.provider r with
      | none =>
          have hnone := List.findSome?_eq_none_iff.mp hfound q
            (List.mem_of_getElem? hq)
          simp [hop, hid, hentered] at hnone
      | some p =>
          obtain ⟨q', hmem, hq'⟩ := List.exists_of_findSome?_eq_some hfound
          obtain ⟨ref', href'⟩ := List.mem_iff_getElem?.mp hmem
          split at hq'
          · next name' procedure' options' hop' =>
            split at hq'
            · next hcond =>
              -- the table has one entry for the id, so it is the same request
              obtain ⟨e', he', hresp⟩ := hr.provide hc href' hcond.2 hop'
              rw [hcond.1, he] at he'
              obtain rfl := Option.some.inj he'
              rw [← hresp, hq] at href'
              obtain rfl := Option.some.inj href'
              rw [hop] at hop'
              obtain ⟨-, rfl, -⟩ := Operation.provide.inj hop'
              exact congrArg some (Option.some.inj hq').symm
            · cases hq'
          · cases hq'

/-- Only REGISTERED touches the procedures. -/
theorem Answer.procedures {i : Incoming} (h : Answer i c d)
    (hi : ∀ r g, i ≠ .registered r g) :
    d.session.procedures = c.session.procedures := by
  cases h
  case registered r g e he hq => exact absurd rfl (hi r g)
  case registeredTwice r g e he hq => exact absurd rfl (hi r g)
  all_goals rfl

theorem Client.installs_of_ne (c : Client) (g : UInt64) {i : Input}
    (h : ∀ obj user r g', i = .message obj user →
      Incoming.read obj ≠ .registered r g') : c.installs g i = [] := by
  cases i <;> try rfl
  case message obj user =>
    simp only [Client.installs]
    split
    · next r g' hread => exact absurd hread (h obj user r g' rfl)
    · rfl

/-- What a step installs replaces what was there. -/
theorem Client.Reachable.procedures_step (h : c.Reachable)
    (hids : c.issued < UInt64.size) (g : UInt64) (i : Input) :
    (c.step i).session.procedures.find g =
      (c.installs g i).getLast?.or (c.session.procedures.find g) := by
  have hc := h.coherent
  have hr := h.registers hids
  by_cases hi : ∃ obj user r g', i = .message obj user ∧
      Incoming.read obj = .registered r g'
  · obtain ⟨obj, user, r, g', rfl, hread⟩ := hi
    simp only [Client.installs, hread]
    by_cases ha : c.alive = true
    case neg => simp [Client.step_message, ha]
    rw [hr.provider_eq hc]
    cases he : c.session.registerRequests.find r with
    | none =>
        rw [Client.step_message, if_pos ha, hread, run_registered_none user he]
        simp
    | some e =>
        rw [(Client.step_registered ha hread he user).procedures]
        show (c.session.procedures.assign g' e.procedure).find g = _
        rw [Table.find_assign]
        by_cases hg : g = g'
        · subst hg
          simp [ha]
        · have hg' : ¬ g' = g := fun heq => hg heq.symm
          simp [hg, hg']
  · simp only [not_exists, not_and] at hi
    rw [c.installs_of_ne g hi]
    show _ = c.session.procedures.find g
    rcases c.step_cases i with hq | ⟨obj, user, hm, -, hans⟩ | ⟨-, -, hd⟩
    · rw [hq.routing.2]
    · rw [hans.procedures fun r g' => hi obj user r g' hm]
    · rw [hd]
      rfl

/-- **The procedure of a registration id is its history.** -/
theorem Client.procedures_runs (plan : Nat → WriteResult) (is : List Input)
    (hids : ((Client.new plan).runs is).issued < UInt64.size) (g : UInt64) :
    ((Client.new plan).runs is).session.procedures.find g =
      (Client.installed g (Client.new plan) is).getLast? := by
  induction is using List.reverseRecOn with
  | nil => rfl
  | append_singleton is i ih =>
      have hbefore : ((Client.new plan).runs is).issued < UInt64.size :=
        Nat.lt_of_le_of_lt ((Client.new plan).issued_le_of_isPrefix
          (List.prefix_append is [i])) hids
      rw [Client.runs, Machine.run_snoc,
        (Client.reachable_runs plan is).procedures_step hbefore, ih hbefore,
        Client.installed, Client.installed, Machine.collected_snoc,
        List.getLast?_append]

/-! ## Processing an INVOCATION -/

/-- `[INVOCATION, i, g, details(, args(, kwargs))]` -/
def invocationMessage (i g : UInt64) (details : List (Object × Object))
    (tail : Tail) : Object :=
  MessageType.INVOCATION.object (.positiveInteger i :: .positiveInteger g ::
    .map details :: tail.objects)

theorem read_invocationMessage (i g : UInt64) (details : List (Object × Object))
    (tail : Tail) :
    Incoming.read (invocationMessage i g details tail) =
      .invocation g i (.map details) tail.arguments tail.kwArguments := by
  rw [invocationMessage, read_object, readFields, readInvocation,
    readPayload_objects]

/-- One call of the procedure, on what the message brings. -/
structure Client.Invoked (c d : Client) (p : WampProcedure) (i : UInt64)
    (tail : Tail) : Prop where
  ran : d.ran = c.ran ++ [(p, c.heard.length)]
  heard : d.heard = c.heard ++ [(i, tail.arguments, tail.kwArguments)]

/-- **An INVOCATION runs the history of its registration id.** In any run, it is
given to the procedure whose provide operation was answered by the last REGISTERED
that carried the id, and to no other; without one the message changes
nothing. -/
theorem Client.invocation_callbacks (plan : Nat → WriteResult) (is : List Input)
    (i g : UInt64) (details : List (Object × Object)) (tail : Tail)
    (user : UserCode) (ha : ((Client.new plan).runs is).alive = true)
    (hids : ((Client.new plan).runs is).issued < UInt64.size) :
    let c := (Client.new plan).runs is
    let d := c.step (.message (invocationMessage i g details tail) user)
    match (Client.installed g (Client.new plan) is).getLast? with
    | some p => c.Invoked d p i tail
    | none => d = c := by
  intro c d
  have hread := read_invocationMessage i g details tail
  have hfind := Client.procedures_runs plan is hids g
  cases hlast : (Client.installed g (Client.new plan) is).getLast? with
  | none =>
      rw [hlast] at hfind
      show c.step (.message (invocationMessage i g details tail) user) = c
      rw [Client.step_message, if_pos ha, hread, run_invocation_none user hfind]
  | some p =>
      rw [hlast] at hfind
      obtain ⟨hheard, hran, -⟩ := Client.step_invocation ha hread hfind user
      exact ⟨hran, hheard⟩

/-- Two procedures are registered under the id 5, and the first of them once more
under 6: an INVOCATION of 5 runs the second. -/
theorem invocation_runs_last_procedure :
    let is : List Input :=
      [.message (MessageType.WELCOME.object [.positiveInteger 7]) fun _ => {},
        .operate (.provide (octets "com.a") ⟨0⟩ []),
        .operate (.provide (octets "com.b") ⟨1⟩ []), .task 0, .task 0,
        .message (MessageType.REGISTERED.object
          [.positiveInteger 1, .positiveInteger 5]) fun _ => {},
        .message (MessageType.REGISTERED.object
          [.positiveInteger 1, .positiveInteger 6]) fun _ => {},
        .message (MessageType.REGISTERED.object
          [.positiveInteger 2, .positiveInteger 5]) fun _ => {}]
    let c := (Client.new fun _ => .complete).runs is
    c.Invoked (c.step (.message (invocationMessage 9 5 [] (.list [.nil])) fun _ => {}))
        ⟨1⟩ 9 (.list [.nil]) ∧
      Client.installed 6 (Client.new fun _ => .complete) is = [⟨0⟩] := by
  intro is c
  have h := Client.invocation_callbacks (fun _ => .complete) is 9 5 [] (.list [.nil])
    (fun _ => {}) rfl (by decide)
  exact ⟨h, rfl⟩

end

end Autobahn
