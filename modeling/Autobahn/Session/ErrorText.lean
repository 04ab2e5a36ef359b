import Autobahn.Foundation.CString
import Autobahn.Session.Invocations
import Autobahn.Session.Refusal

/-!
# The text of an error, from callee to caller

A callee fails an invocation by one of the three `error` overloads or by
throwing, and the router relays the ERROR to the caller. The caller's future
gets a `std::runtime_error` made of a string that starts with the URI; what
follows is decided by converting the whole keyword map to strings.

`error_text` says which string it is: the entry `what` counts when every key
and value of the map converts, and a map that does not convert is reported as
an unknown exception. The caller reads it as `what()`, up to its first NUL.
-/

namespace Autobahn

open Foundation MsgPack Conversion

/-! ## Converting the keyword arguments -/

/-- Key and value of the entry convert to `std::string`. -/
def Textual (e : Object × Object) : Prop :=
  ∃ k v, asString e.1 = .ok k ∧ asString e.2 = .ok v

/-- `w` is the value of the last entry whose key converts to `key`. -/
def LastEntry (key w : Octets) (entries : List (Object × Object)) : Prop :=
  ∃ front e back, entries = front ++ e :: back ∧ asString e.1 = .ok key ∧
    asString e.2 = .ok w ∧ ∀ e' ∈ back, asString e'.1 ≠ .ok key

/-- The text an error with this URI and these keyword arguments has. -/
structure DescribesError (uri : Octets) (entries : List (Object × Object))
    (text : Octets) : Prop where
  what : (∀ e ∈ entries, Textual e) → ∀ w, LastEntry (octets "what") w entries →
    text = uri ++ octets ": " ++ w
  bare : (∀ e ∈ entries, Textual e) →
    (∀ e ∈ entries, asString e.1 ≠ .ok (octets "what")) → text = uri
  unknown : (∃ e ∈ entries, ¬ Textual e) →
    text = uri ++ octets ": unknown exception"

theorem asStringMap_nil : asStringMap (.map []) = .ok [] := rfl

theorem asStringMap_cons (e : Object × Object) (entries : List (Object × Object)) :
    asStringMap (.map (e :: entries)) =
      (asString e.1).bind fun k => (asString e.2).bind fun v =>
        (asStringMap (.map entries)).bind fun m => .ok ((k, v) :: m) := by
  simp only [asStringMap, List.mapM_cons]
  cases asString e.1 <;> cases asString e.2 <;> rfl

/-- A map converts entry by entry. -/
theorem asStringMap_eq_ok : ∀ {entries : List (Object × Object)}
    {m : List (Octets × Octets)}, asStringMap (.map entries) = .ok m ↔
      List.Forall₂ (fun e s => asString e.1 = .ok s.1 ∧ asString e.2 = .ok s.2)
        entries m
  | [], m => by
      rw [asStringMap_nil, Except.ok.injEq, List.forall₂_nil_left_iff, eq_comm]
  | e :: entries, m => by
      rw [asStringMap_cons, List.forall₂_cons_left_iff]
      simp only [← @asStringMap_eq_ok entries]
      cases hk : asString e.1 with
      | error x => simp [Except.bind]
      | ok k =>
      cases hv : asString e.2 with
      | error x => simp [Except.bind]
      | ok v =>
      cases hm : asStringMap (.map entries) with
      | error x => simp [Except.bind]
      | ok m' => simp [Except.bind, eq_comm]

theorem exists_asStringMap : ∀ {entries : List (Object × Object)},
    (∀ e ∈ entries, Textual e) → ∃ m, asStringMap (.map entries) = .ok m
  | [], _ => ⟨[], rfl⟩
  | e :: entries, h => by
      obtain ⟨k, v, hk, hv⟩ := h e List.mem_cons_self
      obtain ⟨m, hm⟩ := exists_asStringMap fun e' he' =>
        h e' (List.mem_cons_of_mem e he')
      exact ⟨(k, v) :: m, by simp [asStringMap_cons, hk, hv, hm, Except.bind]⟩

theorem textual_of_asStringMap {entries : List (Object × Object)}
    {m : List (Octets × Octets)} (h : asStringMap (.map entries) = .ok m) :
    ∀ e ∈ entries, Textual e := by
  have hrel := asStringMap_eq_ok.mp h
  clear h
  induction hrel with
  | nil => exact fun e he => absurd he List.not_mem_nil
  | @cons e s entries m hes _ ih =>
      intro e' he'
      rcases List.mem_cons.mp he' with rfl | he'
      · exact ⟨s.1, s.2, hes⟩
      · exact ih e' he'

/-- The last entry of a key is looked for behind the first one first. -/
theorem findKey_cons (key : Octets) (s : Octets × Octets)
    (m : List (Octets × Octets)) :
    findKey key (s :: m) =
      (findKey key m).or (if s.1 = key then some s.2 else none) := by
  by_cases hs : s.1 = key <;>
    simp [findKey, List.find?_append, hs]

section

variable {key : Octets} {entries : List (Object × Object)}
  {m : List (Octets × Octets)}

theorem findKey_eq_none (hm : asStringMap (.map entries) = .ok m)
    (h : ∀ e ∈ entries, asString e.1 ≠ .ok key) : findKey key m = none := by
  have hrel := asStringMap_eq_ok.mp hm
  clear hm
  induction hrel with
  | nil => rfl
  | @cons e s entries m hes _ ih =>
      have hs : s.1 ≠ key := by
        intro heq
        exact h e List.mem_cons_self (heq ▸ hes.1)
      rw [findKey_cons, ih fun e' he' => h e' (List.mem_cons_of_mem e he'),
        if_neg hs]
      rfl

theorem findKey_eq_some (hm : asStringMap (.map entries) = .ok m) {w : Octets}
    (h : LastEntry key w entries) : findKey key m = some w := by
  obtain ⟨front, e, back, rfl, hk, hw, hback⟩ := h
  have hrel := asStringMap_eq_ok.mp hm
  clear hm
  induction front generalizing m with
  | nil =>
      obtain ⟨s, m', hes, hrest, rfl⟩ := List.forall₂_cons_left_iff.mp hrel
      obtain rfl : key = s.1 := Except.ok.inj (hk.symm.trans hes.1)
      obtain rfl : w = s.2 := Except.ok.inj (hw.symm.trans hes.2)
      rw [findKey_cons, findKey_eq_none (asStringMap_eq_ok.mpr hrest) hback,
        if_pos rfl]
      rfl
  | cons e' front ih =>
      obtain ⟨s, m', -, hrest, rfl⟩ := List.forall₂_cons_left_iff.mp hrel
      rw [findKey_cons, ih hrest]
      rfl

end

/-- **The text of an error**, whatever its keyword arguments are. -/
theorem describesError_errorText (uri : Octets) (entries : List (Object × Object)) :
    DescribesError uri entries (errorText uri (.map entries)) := by
  constructor
  · intro htextual w hw
    obtain ⟨m, hm⟩ := exists_asStringMap htextual
    simp [errorText, hm, findKey_eq_some hm hw]
  · intro htextual hnone
    obtain ⟨m, hm⟩ := exists_asStringMap htextual
    simp [errorText, hm, findKey_eq_none hm hnone]
  · rintro ⟨e, he, hnot⟩
    cases hm : asStringMap (.map entries) with
    | ok m => exact absurd (textual_of_asStringMap hm e he) hnot
    | error x => simp [errorText, hm]

/-! ## From the callee's frame to the caller's future -/

/-- What the router makes of a callee's ERROR for the call `r`:
`[ERROR, CALL, r, {}, uri, args?, kwargs?]`. -/
def relayedError (r : UInt64) (buffer : Frame) : Option Object :=
  match decode buffer with
  | some (.positiveInteger code :: .positiveInteger requestType ::
      .positiveInteger _ :: .map _ :: rest) =>
      if code = MessageType.ERROR.code ∧
          requestType = MessageType.INVOCATION.code then
        some (MessageType.ERROR.object (.positiveInteger MessageType.CALL.code ::
          .positiveInteger r :: .map [] :: rest))
      else none
  | _ => none

/-- The tail of a message that carries this payload. -/
def Payload.tail : Payload → Except Exn Tail
  | .none => .ok .none
  | .list arguments => arguments.map .list
  | .listMap arguments kwArguments => do
      let a ← arguments
      let kw ← kwArguments
      pure (.listMap a kw)

/-- The keyword arguments a receiver sees. -/
def Tail.kwEntries : Tail → List (Object × Object)
  | .none | .list _ => []
  | .listMap _ kwArguments => kwArguments

theorem Payload.objects_eq_tail (p : Payload) : p.objects = p.tail.map Tail.objects := by
  rcases p with _ | ⟨a | a⟩ | ⟨a | a, kw | kw⟩ <;> rfl

theorem Tail.kwArguments_eq (t : Tail) : t.kwArguments = .map t.kwEntries := by
  cases t <;> rfl

theorem relayedError_errorFrame {i : UInt64} {uri : Octets} {payload : Payload}
    {buffer : Frame} (hb : errorFrame i uri payload = .ok buffer) (r : UInt64) :
    ∃ tail, payload.tail = .ok tail ∧
      relayedError r buffer = some (refusal .call r [] uri tail) := by
  rw [errorFrame_eq_pack, Payload.objects_eq_tail] at hb
  cases ht : payload.tail with
  | error x =>
      rw [ht] at hb
      cases hb
  | ok tail =>
      rw [ht] at hb
      obtain rfl := Except.ok.inj hb
      exact ⟨tail, rfl, by simp [relayedError, refusal, RequestKind.messageType]⟩

/-- `what()` of a `std::runtime_error` made of this string: a C string, which ends
at the first NUL. -/
def runtimeErrorWhat (text : Octets) : Octets := (CString.ofOctets text).text

theorem runtimeErrorWhat_eq {text : Octets} (h : 0 ∉ text) :
    runtimeErrorWhat text = text :=
  CString.text_ofOctets h

/-- Processing `obj` returns, and the future of the call `ref` has failed with a
`std::runtime_error` that says `what`. -/
def Client.CallFails (c : Client) (user : UserCode) (obj : Object) (ref : Nat)
    (what : Octets) : Prop :=
  ((gotMessage user obj).run c).1 = .ok () ∧
    ∃ q text, ((gotMessage user obj).run c).2.requests[ref]? = some q ∧
      q.promise.outcome = some (.error (.runtimeError text)) ∧
      runtimeErrorWhat text = what

theorem Client.callFails_refusal {c : Client} {r : UInt64} {ref : Nat}
    (hp : c.session.pending .call r = some ref) (hq : c.Unsettled ref)
    (user : UserCode) (details : List (Object × Object)) (uri : Octets)
    (tail : Tail) :
    c.CallFails user (refusal .call r details uri tail) ref
      (runtimeErrorWhat (errorText uri tail.kwArguments)) := by
  obtain ⟨e, he, rfl⟩ : ∃ e, c.session.calls.find r = some e ∧ e.result = ref :=
    Option.map_eq_some_iff.mp hp
  have hobs := c.observe_refusal user .call r details uri tail
  rw [if_pos rfl] at hobs
  have hrun : ((Incoming.callError r
      (errorText uri tail.kwArguments)).handle user).run c = _ :=
    run_callError user he
  -- the call waits, so of the three ways to settle it only the first is left
  rcases settleRequest_cases e.result
    (.error (.runtimeError (errorText uri tail.kwArguments))) c with
    ⟨-, hs⟩ | ⟨hnot, -⟩ | ⟨hnot, -⟩
  · rw [hs] at hrun
    rw [observe, observe, hrun] at hobs
    obtain ⟨hout, hstate⟩ := Prod.mk.inj hobs
    obtain ⟨u, hu⟩ := outcomeOf_eq_returned.mp hout
    obtain ⟨q, hget, -⟩ := hq
    refine ⟨hu, { q with promise := { q.promise with
      outcome := some (.error (.runtimeError
        (errorText uri tail.kwArguments))) } }, _, ?_, rfl, rfl⟩
    rw [hstate, Client.settled, Client.getElem?_modifyRequest, if_pos rfl, hget]
    rfl
  · exact absurd hq hnot
  · exact absurd hq hnot

/-- The automatic ERROR of a procedure that threw `what`. -/
theorem throwsStd_reply (i : UInt64) (what : Octets) :
    ∃ buffer, (Ending.throwsStd what).reply i = some buffer ∧
      errorFrame i runtimeErrorUri (.listMap (.ok [])
        (.ok [(.str (octets "what"), .str what)])) = .ok buffer :=
  ⟨_, rfl, rfl⟩

theorem errorText_what (what : Octets) :
    errorText runtimeErrorUri (.map [(.str (octets "what"), .str what)]) =
      octets "wamp.error.runtime_error: " ++ what := by
  have hm : asStringMap (.map [(.str (octets "what"), .str what)]) =
      .ok [(octets "what", what)] := rfl
  have hcolon : runtimeErrorUri ++ octets ": " =
      octets "wamp.error.runtime_error: " := by decide
  simp [errorText, hm, findKey, hcolon]

/-- Nothing of an exception's `what()` is lost: it holds no NUL. -/
theorem runtimeErrorWhat_thrown (what : CString) :
    runtimeErrorWhat (errorText runtimeErrorUri
      (.map [(.str (octets "what"), .str what.text)])) =
      octets "wamp.error.runtime_error: " ++ what.text := by
  rw [errorText_what]
  apply runtimeErrorWhat_eq
  rw [List.mem_append, not_or]
  exact ⟨by decide, what.zero_not_mem_text⟩

/-- A procedure that throws before it has replied is answered for with that
ERROR when its handler returns. -/
theorem Client.Reachable.answered_throw {c : Client} (h : c.Reachable)
    (ha : c.alive = true) {obj : Object} {g i : UInt64}
    {details arguments kwArguments : Object} {p : WampProcedure} {user : UserCode}
    (hread : Incoming.read obj = .invocation g i details arguments kwArguments)
    (hp : c.session.procedures.find g = some p) {what : Octets}
    (hend : (user 0).ending = .throwsStd what)
    (hnone : firstReply i c.invocations.length (user 0).actions = none) :
    (c.step (.message obj user)).RepliedWith c.invocations.length i
      ((Ending.throwsStd what).reply i) := by
  have hreply := h.repliedWith ha user hread hp
  rw [Script.reply, hnone, hend] at hreply
  exact hreply

/-- **Which text of an error arrives.** Let the call `r` wait at the caller. For
each frame that one of the `error` overloads packs, the relayed ERROR fails the
call's future with the text that the URI and the keyword arguments describe, as
far as `what()` shows it; and an exception thrown by the procedure arrives with
all of its `what()`. -/
theorem Client.error_text {c : Client} {r : UInt64} {ref : Nat}
    (hp : c.session.pending .call r = some ref) (hq : c.Unsettled ref)
    (user : UserCode) (i : UInt64) :
    (∀ uri payload buffer, (ReplyAttempt.error uri payload).frame i = .ok buffer →
      ∃ tail obj text, payload.tail = .ok tail ∧
        relayedError r buffer = some obj ∧
        DescribesError uri tail.kwEntries text ∧
        c.CallFails user obj ref (runtimeErrorWhat text)) ∧
    ∀ what : CString, ∃ buffer obj,
      (Ending.throwsStd what.text).reply i = some buffer ∧
      relayedError r buffer = some obj ∧
      c.CallFails user obj ref
        (octets "wamp.error.runtime_error: " ++ what.text) := by
  constructor
  · intro uri payload buffer hb
    obtain ⟨tail, htail, hrelay⟩ := relayedError_errorFrame hb r
    refine ⟨tail, _, errorText uri tail.kwArguments, htail, hrelay, ?_,
      callFails_refusal hp hq user [] uri tail⟩
    rw [tail.kwArguments_eq]
    exact describesError_errorText uri tail.kwEntries
  · intro what
    obtain ⟨buffer, hreply, hframe⟩ := throwsStd_reply i what.text
    obtain ⟨tail, htail, hrelay⟩ := relayedError_errorFrame hframe r
    obtain rfl := Except.ok.inj htail
    have hfails := callFails_refusal hp hq user [] runtimeErrorUri
      (.listMap [] [(.str (octets "what"), .str what.text)])
    rw [Tail.kwArguments_eq, Tail.kwEntries, runtimeErrorWhat_thrown] at hfails
    exact ⟨buffer, _, hreply, hrelay, hfails⟩

/-- A call waits and the procedure throws `x`. -/
theorem error_text_of_a_thrown_exception :
    let c := (Client.new fun _ => .complete).runs
      [.message (MessageType.WELCOME.object [.positiveInteger 7]) fun _ => {},
        .operate (.call (octets "com.f") .none), .task 0]
    ∃ buffer obj, (Ending.throwsStd (octets "x")).reply 3 = some buffer ∧
      relayedError 1 buffer = some obj ∧
      c.CallFails (fun _ => {}) obj 0
        (octets "wamp.error.runtime_error: " ++ octets "x") := by
  intro c
  have hwait : c.Unsettled 0 := ⟨_, rfl, by decide⟩
  have hp : c.session.pending .call 1 = some 0 := rfl
  have h := (Client.error_text hp hwait (fun _ => {}) 3).2
    (CString.ofOctets (octets "x"))
  rwa [CString.text_ofOctets (by decide)] at h

theorem Client.CallFails.what_eq {c : Client} {user : UserCode} {obj : Object}
    {ref : Nat} {what what' : Octets} (h : c.CallFails user obj ref what)
    (h' : c.CallFails user obj ref what') : what = what' := by
  obtain ⟨-, q, text, hq, ho, rfl⟩ := h
  obtain ⟨-, q', text', hq', ho', rfl⟩ := h'
  obtain rfl := Option.some.inj (hq.symm.trans hq')
  obtain rfl :=
    Exn.runtimeError.inj (Except.error.inj (Option.some.inj (ho.symm.trans ho')))
  rfl

/-- `error("e", [], {"what": "x", "code": 5})`: the text that arrives is
`e: unknown exception`, not `e: x`. -/
theorem what_lost_beside_an_integer :
    let c := (Client.new fun _ => .complete).runs
      [.message (MessageType.WELCOME.object [.positiveInteger 7]) fun _ => {},
        .operate (.call (octets "com.f") .none), .task 0]
    ∃ buffer obj, (ReplyAttempt.error (octets "e") (.listMap (.ok [])
          (.ok [(.str (octets "what"), .str (octets "x")),
            (.str (octets "code"), .positiveInteger 5)]))).frame 3 = .ok buffer ∧
      relayedError 1 buffer = some obj ∧
      c.CallFails (fun _ => {}) obj 0 (octets "e: unknown exception") ∧
      ¬ c.CallFails (fun _ => {}) obj 0 (octets "e: x") := by
  intro c
  have hwait : c.Unsettled 0 := ⟨_, rfl, by decide⟩
  have hp : c.session.pending .call 1 = some 0 := rfl
  let entries : List (Object × Object) :=
    [(.str (octets "what"), .str (octets "x")),
      (.str (octets "code"), .positiveInteger 5)]
  have hframe : errorFrame 3 (octets "e") (.listMap (.ok []) (.ok entries)) = .ok _ :=
    rfl
  obtain ⟨tail, htail, hrelay⟩ := relayedError_errorFrame hframe 1
  obtain rfl := Except.ok.inj htail
  have htext : runtimeErrorWhat (errorText (octets "e") (.map entries)) =
      octets "e: unknown exception" := by decide
  have hfails := Client.callFails_refusal hp hwait (fun _ => {}) [] (octets "e")
    (.listMap [] entries)
  rw [Tail.kwArguments_eq, Tail.kwEntries, htext] at hfails
  refine ⟨_, _, rfl, hrelay, hfails, fun h => ?_⟩
  exact absurd (hfails.what_eq h) (by decide)

end Autobahn
