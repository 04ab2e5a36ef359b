import Autobahn.Session.CallResult
import Autobahn.Session.ErrorText
import Autobahn.Session.Lookup
import Autobahn.Session.Providing
import Autobahn.Session.Subscribing

/-!
# What user code reads

The accessors of `wamp_event`, `wamp_invocation` and `wamp_call_result` look at
the type of an object before they look into it. In a session these guards are
never hit: whatever handlers, procedures and futures are handed is what the EVENT,
INVOCATION or RESULT that brought it carried, a list of arguments and a map of
keyword arguments, and the accessors read these (`Client.accessors_runs`).
-/

namespace Autobahn

open Foundation MsgPack Relation

/-! ## The accessors -/

/-- The index is printed by `lexical_cast<std::string>`. -/
def noArgument (index : UInt64) : Octets :=
  octets ("no argument at index " ++ toString index.toNat)

section Accessors

variable {α : Type} (as : Object → Except Exn α)

def argumentAt (arguments : Object) (index : UInt64) : Fetch α :=
  match arguments with
  | .array elements =>
      if h : index.toNat < elements.length then
        (as elements[index.toNat]).mapError .exn
      else .error (.outOfRange (noArgument index))
  | _ => .error (.outOfRange (noArgument index))

namespace WampEvent

def numberOfArguments (event : WampEvent) : Nat := arraySize event.arguments

def numberOfKwArguments (event : WampEvent) : Nat := mapSize event.kwArguments

def argument (event : WampEvent) (index : UInt64) : Fetch α :=
  argumentAt as event.arguments index

end WampEvent

def WampCallResult.argument (result : WampCallResult) (index : UInt64) : Fetch α :=
  argumentAt as result.arguments index

namespace WampInvocation

def numberOfArguments (invocation : WampInvocation) : Nat :=
  arraySize invocation.arguments

def numberOfKwArguments (invocation : WampInvocation) : Nat :=
  mapSize invocation.kwArguments

def argument (invocation : WampInvocation) (index : UInt64) : Fetch α :=
  argumentAt as invocation.arguments index

end WampInvocation

/-- The accessors of one object. -/
structure Accessors (α : Type) where
  numberOfArguments : Nat
  numberOfKwArguments : Nat
  argument : UInt64 → Fetch α
  lookups : KwLookups α

def WampEvent.accessors (event : WampEvent) : Accessors α where
  numberOfArguments := event.numberOfArguments
  numberOfKwArguments := event.numberOfKwArguments
  argument := event.argument as
  lookups := event.kwLookups as

def WampCallResult.accessors (result : WampCallResult) : Accessors α where
  numberOfArguments := result.numberOfArguments
  numberOfKwArguments := result.numberOfKwArguments
  argument := result.argument as
  lookups := result.kwLookups as

def WampInvocation.accessors (invocation : WampInvocation) : Accessors α where
  numberOfArguments := invocation.numberOfArguments
  numberOfKwArguments := invocation.numberOfKwArguments
  argument := invocation.argument as
  lookups := invocation.kwLookups as

/-- The accessors read a list of arguments and a map of keyword arguments. -/
structure Accessors.Read (accessors : Accessors α) (elements : List Object)
    (entries : List (Object × Object)) : Prop where
  number : accessors.numberOfArguments = elements.length
  numberKw : accessors.numberOfKwArguments = entries.length
  within : ∀ (index : UInt64) (o : Object), elements[index.toNat]? = some o →
    accessors.argument index = (as o).mapError .exn
  beyond : ∀ index : UInt64, elements.length ≤ index.toNat →
    accessors.argument index = .error (.outOfRange (noArgument index))
  keyword : ∀ k, Decided as k entries (.error (.outOfRange (noKeyword k)))
    (accessors.lookups.kwArgument k)

end Accessors

/-- What the three classes have in common: they look into two objects. -/
def accessorsIn {α : Type} (as : Object → Except Exn α)
    (arguments kwArguments : Object) : Accessors α where
  numberOfArguments := arraySize arguments
  numberOfKwArguments := mapSize kwArguments
  argument := argumentAt as arguments
  lookups := kwLookupsIn as kwArguments

theorem accessorsIn_read {α : Type} (as : Object → Except Exn α)
    (elements : List Object) (entries : List (Object × Object)) :
    (accessorsIn as (.array elements) (.map entries)).Read as elements entries where
  number := rfl
  numberKw := rfl
  within index o ho := by
    obtain ⟨hlt, rfl⟩ := List.getElem?_eq_some_iff.mp ho
    exact dif_pos hlt
  beyond index hle := dif_neg (Nat.not_lt.mpr hle)
  keyword k := lookup_sameString_decided _

/-! ## What a message carries -/

/-- `[RESULT, r, details(, args(, kwargs))]` -/
def resultMessage (r : UInt64) (details : List (Object × Object)) (tail : Tail) :
    Object :=
  MessageType.RESULT.object (.positiveInteger r :: .map details :: tail.objects)

/-- The arguments a receiver sees. -/
def Tail.elements : Tail → List Object
  | .none => []
  | .list arguments | .listMap arguments _ => arguments

theorem Tail.arguments_eq (t : Tail) : t.arguments = .array t.elements := by
  cases t <;> rfl

theorem accessorsIn_tail {α : Type} (as : Object → Except Exn α) (tail : Tail) :
    (accessorsIn as tail.arguments tail.kwArguments).Read as tail.elements
      tail.kwEntries := by
  rw [tail.arguments_eq, tail.kwArguments_eq]
  exact accessorsIn_read as tail.elements tail.kwEntries

theorem exists_of_readPayload {rest : List Object} {arguments kwArguments : Object}
    (h : readPayload rest = some (arguments, kwArguments)) :
    ∃ tail : Tail, rest = tail.objects ∧ arguments = tail.arguments ∧
      kwArguments = tail.kwArguments := by
  unfold readPayload at h
  split at h
  · obtain ⟨rfl, rfl⟩ := Prod.mk.inj (Option.some.inj h)
    exact ⟨.none, rfl, rfl, rfl⟩
  · obtain ⟨rfl, rfl⟩ := Prod.mk.inj (Option.some.inj h)
    exact ⟨.list _, rfl, rfl, rfl⟩
  · obtain ⟨rfl, rfl⟩ := Prod.mk.inj (Option.some.inj h)
    exact ⟨.listMap _ _, rfl, rfl, rfl⟩
  · cases h

/-- The code under which something is read. -/
def Incoming.code? : Incoming → Option MessageType
  | .welcome _ => some .WELCOME
  | .goodbye _ => some .GOODBYE
  | .callError .. => some .ERROR
  | .result .. => some .RESULT
  | .subscribed .. => some .SUBSCRIBED
  | .unsubscribed _ => some .UNSUBSCRIBED
  | .event .. => some .EVENT
  | .registered .. => some .REGISTERED
  | .invocation .. => some .INVOCATION
  | .malformed | .mistyped | .ignored => none

theorem code?_readFields (t : MessageType) (fields : List Object) :
    (readFields t fields).code? = none ∨ (readFields t fields).code? = some t := by
  cases t
  case WELCOME => cases fields <;> exact .inr rfl
  case GOODBYE =>
    show (readGoodbye fields).code? = none ∨ (readGoodbye fields).code? = _
    unfold readGoodbye
    split <;> exact .inr rfl
  case ERROR =>
    show (readError fields).code? = none ∨ (readError fields).code? = _
    unfold readError readErrorFields readErrorBody
    repeat' split
    all_goals first
      | exact .inl rfl
      | exact .inr rfl
  case SUBSCRIBED =>
    show (readSubscribed fields).code? = none ∨ (readSubscribed fields).code? = _
    unfold readSubscribed
    split
    · exact .inr rfl
    · exact .inl rfl
  case UNSUBSCRIBED =>
    show (readUnsubscribed fields).code? = none ∨ (readUnsubscribed fields).code? = _
    unfold readUnsubscribed
    split
    · exact .inr rfl
    · exact .inl rfl
  case EVENT =>
    show (readEvent fields).code? = none ∨ (readEvent fields).code? = _
    unfold readEvent readEventFields
    repeat' split
    all_goals first
      | exact .inl rfl
      | exact .inr rfl
  case RESULT =>
    show (readResult fields).code? = none ∨ (readResult fields).code? = _
    unfold readResult
    repeat' split
    all_goals first
      | exact .inl rfl
      | exact .inr rfl
  case REGISTERED =>
    show (readRegistered fields).code? = none ∨ (readRegistered fields).code? = _
    unfold readRegistered
    split
    · exact .inr rfl
    · exact .inl rfl
  case INVOCATION =>
    show (readInvocation fields).code? = none ∨ (readInvocation fields).code? = _
    unfold readInvocation
    repeat' split
    all_goals first
      | exact .inl rfl
      | exact .inr rfl
  all_goals exact .inl rfl

/-- What is read under a code is read from a message of this code. -/
theorem exists_of_read {obj : Object} {t : MessageType}
    (h : (Incoming.read obj).code? = some t) :
    ∃ fields, obj = t.object fields ∧ Incoming.read obj = readFields t fields := by
  unfold Incoming.read at h ⊢
  split at h
  · next n fields =>
    split at h
    · cases h
    · next hmax =>
      cases hcode : MessageType.ofCode? n with
      | none =>
          rw [hcode] at h
          cases h
      | some t' =>
          rw [hcode] at h
          have hn : t'.code = n := by
            unfold MessageType.ofCode? at hcode
            simpa using List.find?_some hcode
          have ht : t' = t := by
            rcases code?_readFields t' fields with hnone | hsome
            · exact absurd (hnone.symm.trans h) nofun
            · exact Option.some.inj (hsome.symm.trans h)
          subst ht hn
          exact ⟨fields, rfl, by simp [hmax]⟩
  · cases h

theorem eventMessage_of_read {obj : Object} {s : UInt64} {e : WampEvent}
    (h : Incoming.read obj = .event s (some e)) :
    ∃ p details tail, obj = eventMessage s p details tail ∧ e = tail.event := by
  obtain ⟨fields, rfl, hread⟩ := exists_of_read (congrArg Incoming.code? h)
  have hevent : readEvent fields = .event s (some e) := hread.symm.trans h
  unfold readEvent readEventFields at hevent
  split at hevent
  · cases hevent
  split at hevent
  · next rest =>
    obtain ⟨rfl, hbody⟩ := Incoming.event.inj hevent
    unfold readEventBody at hbody
    split at hbody
    · next rest =>
      obtain ⟨⟨arguments, kwArguments⟩, hrest, rfl⟩ := Option.map_eq_some_iff.mp hbody
      obtain ⟨tail, rfl, rfl, rfl⟩ := exists_of_readPayload hrest
      exact ⟨_, _, tail, rfl, rfl⟩
    · cases hbody
  · cases hevent

theorem invocationMessage_of_read {obj : Object} {g i : UInt64}
    {details arguments kwArguments : Object}
    (h : Incoming.read obj = .invocation g i details arguments kwArguments) :
    ∃ entries tail, obj = invocationMessage i g entries tail ∧
      details = .map entries ∧ arguments = tail.arguments ∧
      kwArguments = tail.kwArguments := by
  obtain ⟨fields, rfl, hread⟩ := exists_of_read (congrArg Incoming.code? h)
  have hinvocation : readInvocation fields =
      .invocation g i details arguments kwArguments := hread.symm.trans h
  unfold readInvocation at hinvocation
  split at hinvocation
  · split at hinvocation
    · next hrest =>
      obtain ⟨rfl, rfl, rfl, rfl, rfl⟩ := Incoming.invocation.inj hinvocation
      obtain ⟨tail, rfl, harguments, hkw⟩ := exists_of_readPayload hrest
      exact ⟨_, tail, rfl, rfl, harguments, hkw⟩
    · cases hinvocation
  · cases hinvocation

theorem resultMessage_of_read {obj : Object} {r : UInt64} {value : WampCallResult}
    (h : Incoming.read obj = .result r value) :
    ∃ details tail, obj = resultMessage r details tail ∧
      value.arguments = tail.arguments ∧ value.kwArguments = tail.kwArguments := by
  obtain ⟨fields, rfl, hread⟩ := exists_of_read (congrArg Incoming.code? h)
  have hresult : readResult fields = .result r value := hread.symm.trans h
  unfold readResult at hresult
  split at hresult
  · split at hresult
    · next hrest =>
      obtain ⟨rfl, rfl⟩ := Incoming.result.inj hresult
      obtain ⟨tail, rfl, harguments, hkw⟩ := exists_of_readPayload hrest
      exact ⟨_, tail, rfl, harguments, hkw⟩
    · cases hresult
  · cases hresult

/-! ## What a step hands on -/

section Steps

variable {c d : Client}

/-- An event that a handler is called with comes from an EVENT. -/
theorem Client.step_eventCalls (c : Client) (i : Input) {k : Nat}
    {call : WampEventHandler × WampEvent} (hcall : (c.step i).eventCalls[k]? = some call) :
    c.eventCalls[k]? = some call ∨ ∃ obj user s, i = .message obj user ∧
      Incoming.read obj = .event s (some call.2) := by
  by_cases hevent : ∃ obj user s content, i = .message obj user ∧
    Incoming.read obj = .event s content
  case neg =>
    have hquiet : c.Uneventful (c.step i) := by
      refine c.step_uneventful fun obj user hi => ?_
      cases hread : Incoming.read obj <;> first
        | rfl
        | exact absurd ⟨obj, user, _, _, hi, hread⟩ hevent
    exact .inl (hquiet ▸ hcall)
  obtain ⟨obj, user, s, content, rfl, hread⟩ := hevent
  rw [Client.step_message, hread] at hcall
  split at hcall
  case isFalse => exact .inl hcall
  cases content with
  | none =>
      by_cases hv : c.session.subscriptionHandlers.values s = []
      · rw [run_event_nil user hv] at hcall
        exact .inl hcall
      · rw [run_event_none user hv] at hcall
        exact .inl hcall
  | some e =>
      rw [run_event, Client.eventCalls, callHandlers_callbacks,
        List.filterMap_append, List.getElem?_append] at hcall
      split at hcall
      · exact .inl hcall
      · obtain ⟨cb, hcb, hcall⟩ := List.mem_filterMap.mp (List.mem_of_getElem? hcall)
        obtain ⟨h, -, rfl⟩ := List.mem_map.mp hcb
        obtain rfl := Option.some.inj hcall
        exact .inr ⟨obj, user, s, rfl, hread⟩

/-- The future of this request, made under the id `r`, has this result. -/
def Client.ResolvedWith (c : Client) (ref : Nat) (r : UInt64)
    (value : WampCallResult) : Prop :=
  ∃ q, c.requests[ref]? = some q ∧ q.requestId = r ∧
    q.promise.outcome = some (.ok (.result value))

/-- What a procedure can read of its invocation, with the request id. -/
def WampInvocation.given (v : WampInvocation) : UInt64 × Object × Object × Object :=
  (v.requestId, v.details, v.arguments, v.kwArguments)

def Client.given (c : Client) : List (UInt64 × Object × Object × Object) :=
  c.invocations.map WampInvocation.given

theorem Client.given_modifyInvocation (c : Client) (h : Nat)
    {f : WampInvocation → WampInvocation} (hf : ∀ v, (f v).given = v.given) :
    (c.modifyInvocation h f).given = c.given := by
  refine List.ext_getElem? fun i => ?_
  rw [Client.given, List.getElem?_map, Client.getElem?_modifyInvocation,
    Client.given, List.getElem?_map]
  split
  · cases c.invocations[i]? <;> simp [hf]
  · rfl

theorem Act.given (h : Act c d) : d.given = c.given := by
  cases h with
  | answer hv hs hb =>
      rw [Client.given, Client.answer_invocations]
      exact c.given_modifyInvocation _ fun _ => rfl
  | handed ht ha =>
      exact Client.given_modifyInvocation (c.dequeue _) _ fun _ => rfl
  | _ => rfl

theorem Acts.given (h : Acts c d) : d.given = c.given := by
  induction h with
  | refl => rfl
  | tail _ h ih => exact h.given.trans ih

theorem Move.given (h : Move c d) : c.given <+: d.given := by
  cases h with
  | quiet h =>
      cases h with
      | act h => exact h.given ▸ List.prefix_refl _
      | invocation hp =>
          simp only [Client.given, Client.invoke, List.map_append]
          exact List.prefix_append _ _
      | _ => exact List.prefix_refl _
  | answer h => cases h <;> exact List.prefix_refl _
  | destroy => exact List.prefix_refl _

/-- Where no invocation is accepted, none is given. -/
theorem Client.step_given_of_heard {i : Input} (h : (c.step i).heard = c.heard) :
    (c.step i).given = c.given := by
  have hpre : c.given <+: (c.step i).given := by
    have hmoves := c.step_moves i
    generalize c.step i = d at hmoves
    induction hmoves with
    | refl => exact List.prefix_refl _
    | tail _ h ih => exact ih.trans h.given
  have hlen := congrArg List.length h
  simp only [Client.heard, List.length_map] at hlen
  exact (hpre.eq_of_length (by simp [Client.given, hlen])).symm

/-- An invocation that a procedure is given comes from an INVOCATION. -/
theorem Client.step_given (c : Client) (i : Input) {k : Nat}
    {x : UInt64 × Object × Object × Object} (hx : (c.step i).given[k]? = some x) :
    c.given[k]? = some x ∨ ∃ obj user g, i = .message obj user ∧
      Incoming.read obj = .invocation g x.1 x.2.1 x.2.2.1 x.2.2.2 := by
  have hold : (c.step i).heard = c.heard → c.given[k]? = some x := fun h =>
    Client.step_given_of_heard h ▸ hx
  by_cases hheard : ∃ obj user, i = .message obj user ∧
    (Incoming.read obj).unheard = false
  case neg =>
    refine .inl (hold (c.step_unheard fun obj user hi => ?_).heard)
    cases hread : (Incoming.read obj).unheard with
    | true => rfl
    | false => exact absurd ⟨obj, user, hi, hread⟩ hheard
  obtain ⟨obj, user, rfl, hunheard⟩ := hheard
  by_cases ha : c.alive
  case neg =>
    rw [Client.step_message, if_neg ha] at hx
    exact .inl hx
  cases hread : Incoming.read obj <;> rw [hread] at hunheard
  case registered r g =>
    cases he : c.session.registerRequests.find r with
    | some e =>
        exact .inl (hold (Client.step_registered ha hread he user).heard)
    | none =>
        rw [Client.step_message, if_pos ha, hread, run_registered_none user he] at hx
        exact .inl hx
  case invocation g j details arguments kwArguments =>
    rw [Client.step_message, if_pos ha, hread] at hx
    cases hp : c.session.procedures.find g with
    | none =>
        rw [run_invocation_none user hp] at hx
        exact .inl hx
    | some p =>
        rw [run_invocation user hp, (callProcedure_acts p _ _ _).given] at hx
        simp only [Client.given, Client.callBack, List.map_append,
          List.getElem?_append] at hx
        split at hx
        · exact .inl hx
        · obtain rfl := List.mem_singleton.mp (List.mem_of_getElem? hx)
          exact .inr ⟨obj, user, g, rfl, hread⟩
  all_goals cases hunheard

end Steps

/-! ## What a run hands on -/

/-- It is the arrival of this message that makes `P` true. -/
def Brought (plan : Nat → WriteResult) (is : List Input) (P : Client → Prop)
    (obj : Object) : Prop :=
  ∃ pre user, pre ++ [.message obj user] <+: is ∧ ¬ P ((Client.new plan).runs pre) ∧
    P (((Client.new plan).runs pre).step (.message obj user))

/-- The accessors of whatever user code was handed read the list and the map of the
message that brought it, both empty if it has none: an EVENT, an INVOCATION with
the invocation's id, or a RESULT with the call's id. -/
structure Accessible (plan : Nat → WriteResult) (is : List Input) {α : Type}
    (as : Object → Except Exn α) : Prop where
  events : ∀ (k : Nat) (h : WampEventHandler) (e : WampEvent),
    ((Client.new plan).runs is).eventCalls[k]? = some (h, e) → ∃ s p details tail,
      Brought plan is (fun c => c.eventCalls[k]? = some (h, e))
        (eventMessage s p details tail) ∧
      (e.accessors as).Read as tail.elements tail.kwEntries
  invocations : ∀ (k : Nat) (v : WampInvocation),
    ((Client.new plan).runs is).invocations[k]? = some v → ∃ g details tail,
      Brought plan is (fun c => c.given[k]? = some v.given)
        (invocationMessage v.requestId g details tail) ∧
      (v.accessors as).Read as tail.elements tail.kwEntries ∧
      ∀ key, Decided as key details (.error (.outOfRange (noDetail key)))
        (v.detailsAt as key)
  results : ∀ (ref : Nat) (q : Request) (value : WampCallResult),
    ((Client.new plan).runs is).requests[ref]? = some q →
    q.promise.outcome = some (.ok (.result value)) → ∃ details tail,
      Brought plan is (fun c => c.ResolvedWith ref q.requestId value)
        (resultMessage q.requestId details tail) ∧
      (value.accessors as).Read as tail.elements tail.kwEntries

section Run

variable {plan : Nat → WriteResult} {is : List Input}

theorem Client.event_brought {k : Nat} {call : WampEventHandler × WampEvent}
    (h : ((Client.new plan).runs is).eventCalls[k]? = some call) :
    ∃ s p details tail, Brought plan is (fun c => c.eventCalls[k]? = some call)
      (eventMessage s p details tail) ∧ call.2 = tail.event := by
  obtain ⟨pre, i, hpre, hnot, hstep⟩ :=
    Machine.exists_brings (P := fun c : Client => c.eventCalls[k]? = some call)
      (by simp [Client.new, Client.eventCalls]) h
  rcases Client.step_eventCalls _ i hstep with hold | ⟨obj, user, s, rfl, hread⟩
  · exact absurd hold hnot
  · obtain ⟨p, details, tail, rfl, heq⟩ := eventMessage_of_read hread
    exact ⟨s, p, details, tail, ⟨pre, user, hpre, hnot, hstep⟩, heq⟩

theorem Client.invocation_brought {k : Nat} {x : UInt64 × Object × Object × Object}
    (h : ((Client.new plan).runs is).given[k]? = some x) :
    ∃ g details tail, Brought plan is (fun c => c.given[k]? = some x)
      (invocationMessage x.1 g details tail) ∧
      x.2 = (.map details, tail.arguments, tail.kwArguments) := by
  obtain ⟨pre, i, hpre, hnot, hstep⟩ :=
    Machine.exists_brings (P := fun c : Client => c.given[k]? = some x)
      (by simp [Client.new, Client.given]) h
  rcases Client.step_given _ i hstep with hold | ⟨obj, user, g, rfl, hread⟩
  · exact absurd hold hnot
  · obtain ⟨details, tail, rfl, hd, ha, hkw⟩ := invocationMessage_of_read hread
    refine ⟨g, details, tail, ⟨pre, user, hpre, hnot, hstep⟩, ?_⟩
    rw [← hd, ← ha, ← hkw]

theorem Client.result_brought {ref : Nat} {r : UInt64} {value : WampCallResult}
    (h : ((Client.new plan).runs is).ResolvedWith ref r value) :
    ∃ details tail, Brought plan is (fun c => c.ResolvedWith ref r value)
      (resultMessage r details tail) ∧
      value.arguments = tail.arguments ∧ value.kwArguments = tail.kwArguments := by
  obtain ⟨pre, i, hpre, hnot, hstep⟩ :=
    Machine.exists_brings (P := fun c : Client => c.ResolvedWith ref r value)
      (by simp [Client.new, Client.ResolvedWith]) h
  obtain ⟨q, hq, rfl, ho⟩ := hstep
  rcases Client.step_result (Client.reachable_runs plan pre).coherent hq ho with
    ⟨q₀, hq₀, hages, ho₀⟩ | ⟨obj, user, rfl, hread⟩
  · exact absurd ⟨q₀, hq₀, hages.requestId.symm, ho₀⟩ hnot
  · obtain ⟨details, tail, rfl, heq⟩ := resultMessage_of_read hread
    exact ⟨details, tail, ⟨pre, user, hpre, hnot, q, hq, rfl, ho⟩, heq⟩

end Run

/-- **The guards are never hit.** In any run, whatever the router sends, the
accessors of every event, invocation and result read the list and the map that
its message brought: `argument` throws but for an index beyond the list, and a
lookup but for a key that is missing, unless the conversion does. -/
theorem Client.accessors_runs (plan : Nat → WriteResult) (is : List Input)
    {α : Type} (as : Object → Except Exn α) : Accessible plan is as where
  events k h e hcall := by
    obtain ⟨s, p, details, tail, hbrought, heq⟩ := Client.event_brought hcall
    obtain rfl : e = tail.event := heq
    exact ⟨s, p, details, tail, hbrought, accessorsIn_tail as tail⟩
  invocations k v hv := by
    have hgiven : ((Client.new plan).runs is).given[k]? = some v.given := by
      rw [Client.given, List.getElem?_map, hv]
      rfl
    obtain ⟨g, details, tail, hbrought, heq⟩ := Client.invocation_brought hgiven
    obtain ⟨hd, hlists⟩ := Prod.mk.inj heq
    obtain ⟨ha, hkw⟩ := Prod.mk.inj hlists
    refine ⟨g, details, tail, hbrought, ?_, fun key => ?_⟩
    · have h := accessorsIn_tail as tail
      rwa [← ha, ← hkw] at h
    · rw [WampInvocation.detailsAt, show v.details = _ from hd]
      exact lookup_sameString_decided _
  results ref q value hq ho := by
    obtain ⟨details, tail, hbrought, ha, hkw⟩ :=
      Client.result_brought ⟨q, hq, rfl, ho⟩
    refine ⟨details, tail, hbrought, ?_⟩
    have h := accessorsIn_tail as tail
    rwa [← ha, ← hkw] at h

end Autobahn
