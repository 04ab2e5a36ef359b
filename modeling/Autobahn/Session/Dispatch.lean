import Autobahn.Session.Incoming

/-!
# The receive path does what the object asks for

The handlers check a message field by field and interleave the checks with
lookups and changes of state; `Incoming.read` looks at the shape first. The
two agree: `gotMessage_observe` gives the same state and the same outcome, up
to the text of a `protocol_error`.
-/

namespace Autobahn

open Foundation MsgPack Conversion

section Refinement

attribute [local simp] Exec.run_bind element converted Except.map checkType

variable (user : UserCode) (c : Client) (code : Object)

/-! ## Payloads -/

/-- More than a list and a map is no payload. -/
theorem readPayload_of_long {rest : List Object} (h : 2 < rest.length) :
    readPayload rest = none := by
  rcases rest with _ | ⟨a, _ | ⟨b, _ | ⟨d, rest⟩⟩⟩
  · simp at h
  · simp at h
  · simp at h
  · simp [readPayload]

theorem readPayload_singleton (a : Object) : readPayload [a] =
    if a.type = .ARRAY then some (a, EMPTY_KW_ARGUMENTS) else none := by
  cases a <;> simp [readPayload, Object.type]

theorem readPayload_pair (a b : Object) : readPayload [a, b] =
    if a.type = .ARRAY ∧ b.type = .MAP then some (a, b) else none := by
  cases a with
  | array elements => cases b <;> simp [readPayload, Object.type]
  | _ => simp [readPayload, Object.type]

theorem run_element {message : WampMessage} {i : Nat} {o : Object}
    (h : message[i]? = some o) : (element message i).run c = (.ok o, c) := by
  simp [h]

theorem run_checkType {message : WampMessage} {i : Nat} {o : Object}
    (h : message[i]? = some o) (t : ObjectType) (what : String) :
    (checkType message i t what).run c =
      if o.type = t then (.ok (), c)
      else (.error (.throws (.protocolError what)), c) := by
  by_cases ht : o.type = t <;> simp [h, ht]

/-- `payloadAt` reads what `readPayload` reads, and rejects the rest. -/
theorem payloadAt_cases (message : List Object) (i : Nat) (rest : List Object)
    (hdrop : message.drop i = rest) (hi : i ≤ message.length)
    (hlen : rest.length ≤ 2) (notList notMap : String) :
    (∃ p, readPayload rest = some p ∧
      (payloadAt message i notList notMap).run c = (.ok p, c)) ∨
    (readPayload rest = none ∧ ∃ what,
      (payloadAt message i notList notMap).run c =
        (.error (.throws (.protocolError what)), c)) := by
  have hlength : message.length = i + rest.length := by
    rw [← hdrop, List.length_drop]
    omega
  have hget : ∀ j, message[i + j]? = rest[j]? := by
    intro j
    rw [← hdrop, List.getElem?_drop]
  rcases rest with _ | ⟨a, _ | ⟨b, _ | ⟨d, rest⟩⟩⟩
  · simp [payloadAt, readPayload, hlength]
  · have h0 : message[i]? = some a := hget 0
    rw [readPayload_singleton]
    by_cases ha : a.type = .ARRAY <;>
      simp [payloadAt, hlength, ha, -checkType, run_checkType c h0, -element,
        run_element c h0]
  · have h0 : message[i]? = some a := hget 0
    have h1 : message[i + 1]? = some b := hget 1
    rw [readPayload_pair]
    by_cases ha : a.type = .ARRAY <;> by_cases hb : b.type = .MAP <;>
      simp [payloadAt, hlength, ha, hb, -checkType, run_checkType c h0,
        run_checkType c h1, -element, run_element c h0, run_element c h1]
  · simp at hlen

/-! ## Rejections -/

/-- The program throws a `protocol_error` and changes nothing. -/
def Rejects {α : Type} (p : ClientM α) (c : Client) : Prop :=
  ∃ what, p.run c = (.error (.throws (.protocolError what)), c)

variable {c} in
theorem Rejects.observe {α : Type} {p : ClientM α} (h : Rejects p c) :
    Autobahn.observe p c = (.protocolError, c) := by
  obtain ⟨what, hp⟩ := h
  simp [Autobahn.observe, outcomeOf, hp]

variable {c} in
theorem Rejects.bind {α β : Type} {p : ClientM α} (h : Rejects p c)
    (f : α → ClientM β) : Rejects (p >>= f) c := by
  obtain ⟨what, hp⟩ := h
  exact ⟨what, Exec.run_bind_error hp f⟩

theorem rejects_protocolError {α : Type} (what : String) :
    Rejects (protocolError what : ClientM α) c :=
  ⟨what, rfl⟩

variable {c} in
/-- Both sides reject: then they agree. -/
theorem observe_eq_of_rejects {p q : ClientM Unit} (hp : Rejects p c)
    (hq : Rejects q c) : observe p c = observe q c := by
  rw [hp.observe, hq.observe]

theorem rejects_malformed : Rejects (Incoming.malformed.handle user) c :=
  ⟨"", rfl⟩

/-! ## One handler at a time -/

theorem processWelcome_observe (fields : List Object) :
    observe (processWelcome (code :: fields)) c =
      observe ((readWelcome fields).handle user) c := by
  have hprog : processWelcome (code :: fields) =
      (readWelcome fields).handle user := by
    rcases fields with _ | ⟨a, rest⟩
    · simp [processWelcome, readWelcome, readOk, Misread.abort, Incoming.handle]
    · cases a <;>
        simp [processWelcome, readWelcome, readOk, Misread.abort, asUInt64,
          Except.mapError, Incoming.handle, throwExn]
  rw [hprog]

theorem run_closeSession : closeSession.run c = (.ok (), c.left) := by
  by_cases hg : c.session.goodbyeSent <;>
    simp [closeSession, Client.left, hg, send, Client.setSession]

theorem closeSession_eq : closeSession = (modify Client.left : ClientM Unit) :=
  funext run_closeSession

theorem processGoodbye_observe (fields : List Object) :
    observe (processGoodbye (code :: fields)) c =
      observe ((readGoodbye fields).handle user) c := by
  have hprog : processGoodbye (code :: fields) =
      (readGoodbye fields).handle user := by
    rcases fields with _ | ⟨a, _ | ⟨b, rest⟩⟩
    · simp [processGoodbye, closeSession_eq, readGoodbye, readOk, Misread.abort,
        Incoming.handle]
    · simp [processGoodbye, closeSession_eq, readGoodbye, readOk, Misread.abort,
        Incoming.handle]
    · cases b <;>
        simp [processGoodbye, closeSession_eq, readGoodbye, readOk, Misread.abort,
          asString, Except.mapError, Incoming.handle, throwExn]
  rw [hprog]

theorem readResult_of_type_ne {a : Object} (tail : List Object)
    (h : a.type ≠ .POSITIVE_INTEGER) : readResult (a :: tail) = .malformed := by
  cases a <;> first | rfl | exact absurd rfl h

theorem readResult_of_details_ne (r : UInt64) {b : Object} (rest : List Object)
    (h : b.type ≠ .MAP) :
    readResult (.positiveInteger r :: b :: rest) = .malformed := by
  cases b <;> first | rfl | exact absurd rfl h

theorem processCallResult_observe (fields : List Object) :
    observe (processCallResult (code :: fields)) c =
      observe ((readResult fields).handle user) c := by
  rcases fields with _ | ⟨a, _ | ⟨b, rest⟩⟩
  · exact observe_eq_of_rejects (by simp [Rejects, processCallResult])
      (rejects_malformed user c)
  · have hread : readResult [a] = .malformed := by cases a <;> rfl
    rw [hread]
    exact observe_eq_of_rejects (by simp [Rejects, processCallResult])
      (rejects_malformed user c)
  by_cases ha : a.type = .POSITIVE_INTEGER
  case neg =>
    rw [readResult_of_type_ne _ ha]
    refine observe_eq_of_rejects ?_ (rejects_malformed user c)
    unfold processCallResult
    split <;> simp [Rejects, ha]
  obtain ⟨r, rfl⟩ := Object.type_eq_POSITIVE_INTEGER.mp ha
  by_cases hb : b.type = .MAP
  case neg =>
    rw [readResult_of_details_ne r _ hb]
    refine observe_eq_of_rejects ?_ (rejects_malformed user c)
    unfold processCallResult
    split
    · simp [Rejects]
    · cases hr : c.session.calls.find r <;> simp [Rejects, hr, hb]
  obtain ⟨d, rfl⟩ := Object.type_eq_MAP.mp hb
  by_cases hlen : rest.length ≤ 2
  case neg =>
    have hread : readResult (.positiveInteger r :: .map d :: rest) =
        .malformed := by
      simp [readResult, readPayload_of_long (by omega : 2 < rest.length)]
    rw [hread]
    refine observe_eq_of_rejects ?_ (rejects_malformed user c)
    unfold processCallResult
    rw [if_pos (by simp only [List.length_cons]; omega)]
    simp [Rejects]
  unfold processCallResult
  rw [if_neg (by simp only [List.length_cons]; omega)]
  cases hr : c.session.calls.find r with
  | none =>
      apply observe_eq_of_rejects (by simp [Rejects, hr])
      cases hp : readPayload rest <;>
        simp [readResult, hp, Rejects, Incoming.handle, hr]
  | some q =>
      rcases payloadAt_cases c
        (code :: .positiveInteger r :: .map d :: rest) 3 rest rfl (by simp) hlen
        "RESULT - YIELD.Arguments must be a list"
        "RESULT - YIELD.ArgumentsKw must be a dictionary"
        with ⟨p, hp, hrun⟩ | ⟨hp, what, hrun⟩
      · simp [observe, readResult, hp, hr, hrun, Incoming.handle]
      · apply observe_eq_of_rejects (by simp [Rejects, hr, hrun])
        simp [readResult, hp, Rejects, Incoming.handle]

theorem processSubscribed_observe (fields : List Object) :
    observe (processSubscribed (code :: fields)) c =
      observe ((readSubscribed fields).handle user) c := by
  rcases fields with _ | ⟨a, _ | ⟨b, _ | ⟨d, rest⟩⟩⟩
  · exact observe_eq_of_rejects (by simp [Rejects, processSubscribed])
      (rejects_malformed user c)
  · have hread : readSubscribed [a] = .malformed := by cases a <;> rfl
    rw [hread]
    exact observe_eq_of_rejects (by simp [Rejects, processSubscribed])
      (rejects_malformed user c)
  · by_cases ha : a.type = .POSITIVE_INTEGER
    case neg =>
      have hread : readSubscribed [a, b] = .malformed := by
        cases a <;> first | rfl | exact absurd rfl ha
      rw [hread]
      exact observe_eq_of_rejects (by simp [Rejects, processSubscribed, ha])
        (rejects_malformed user c)
    obtain ⟨r, rfl⟩ := Object.type_eq_POSITIVE_INTEGER.mp ha
    by_cases hb : b.type = .POSITIVE_INTEGER
    case neg =>
      have hread : readSubscribed [.positiveInteger r, b] = .malformed := by
        cases b <;> first | rfl | exact absurd rfl hb
      rw [hread]
      refine observe_eq_of_rejects ?_ (rejects_malformed user c)
      cases hr : c.session.subscribeRequests.find r <;>
        simp [Rejects, processSubscribed, hr, hb]
    obtain ⟨s, rfl⟩ := Object.type_eq_POSITIVE_INTEGER.mp hb
    cases hr : c.session.subscribeRequests.find r <;>
      simp [observe, outcomeOf, processSubscribed, readSubscribed, hr,
        Incoming.handle, Client.installHandler, Client.eraseSubscribe]
  · have hread : readSubscribed (a :: b :: d :: rest) = .malformed := by
      cases a <;> cases b <;> rfl
    rw [hread]
    exact observe_eq_of_rejects (by simp [Rejects, processSubscribed])
      (rejects_malformed user c)

theorem processUnsubscribed_observe (fields : List Object) :
    observe (processUnsubscribed (code :: fields)) c =
      observe ((readUnsubscribed fields).handle user) c := by
  rcases fields with _ | ⟨a, _ | ⟨b, rest⟩⟩
  · exact observe_eq_of_rejects (by simp [Rejects, processUnsubscribed])
      (rejects_malformed user c)
  · by_cases ha : a.type = .POSITIVE_INTEGER
    case neg =>
      have hread : readUnsubscribed [a] = .malformed := by
        cases a <;> first | rfl | exact absurd rfl ha
      rw [hread]
      exact observe_eq_of_rejects (by simp [Rejects, processUnsubscribed, ha])
        (rejects_malformed user c)
    obtain ⟨r, rfl⟩ := Object.type_eq_POSITIVE_INTEGER.mp ha
    cases hr : c.session.unsubscribeRequests.find r <;>
      simp [observe, outcomeOf, processUnsubscribed, readUnsubscribed, hr,
        Incoming.handle, Client.eraseUnsubscribe]
  · have hread : readUnsubscribed (a :: b :: rest) = .malformed := by
      cases a <;> rfl
    rw [hread]
    exact observe_eq_of_rejects (by simp [Rejects, processUnsubscribed])
      (rejects_malformed user c)

theorem processRegistered_observe (fields : List Object) :
    observe (processRegistered (code :: fields)) c =
      observe ((readRegistered fields).handle user) c := by
  rcases fields with _ | ⟨a, _ | ⟨b, _ | ⟨d, rest⟩⟩⟩
  · exact observe_eq_of_rejects (by simp [Rejects, processRegistered])
      (rejects_malformed user c)
  · have hread : readRegistered [a] = .malformed := by cases a <;> rfl
    rw [hread]
    exact observe_eq_of_rejects (by simp [Rejects, processRegistered])
      (rejects_malformed user c)
  · by_cases ha : a.type = .POSITIVE_INTEGER
    case neg =>
      have hread : readRegistered [a, b] = .malformed := by
        cases a <;> first | rfl | exact absurd rfl ha
      rw [hread]
      exact observe_eq_of_rejects (by simp [Rejects, processRegistered, ha])
        (rejects_malformed user c)
    obtain ⟨r, rfl⟩ := Object.type_eq_POSITIVE_INTEGER.mp ha
    by_cases hb : b.type = .POSITIVE_INTEGER
    case neg =>
      have hread : readRegistered [.positiveInteger r, b] = .malformed := by
        cases b <;> first | rfl | exact absurd rfl hb
      rw [hread]
      refine observe_eq_of_rejects ?_ (rejects_malformed user c)
      cases hr : c.session.registerRequests.find r <;>
        simp [Rejects, processRegistered, hr, hb]
    obtain ⟨g, rfl⟩ := Object.type_eq_POSITIVE_INTEGER.mp hb
    cases hr : c.session.registerRequests.find r <;>
      simp [observe, outcomeOf, processRegistered, readRegistered, hr,
        Incoming.handle, Client.installProcedure]
  · have hread : readRegistered (a :: b :: d :: rest) = .malformed := by
      cases a <;> cases b <;> rfl
    rw [hread]
    exact observe_eq_of_rejects (by simp [Rejects, processRegistered])
      (rejects_malformed user c)

theorem readEventBody_of_publication_ne {a : Object} (tail : List Object)
    (h : a.type ≠ .POSITIVE_INTEGER) : readEventBody (a :: tail) = none := by
  cases a <;> first | rfl | exact absurd rfl h

theorem readEventBody_of_details_ne (p : UInt64) {b : Object}
    (rest : List Object) (h : b.type ≠ .MAP) :
    readEventBody (.positiveInteger p :: b :: rest) = none := by
  cases b <;> first | rfl | exact absurd rfl h

theorem processEvent_observe (fields : List Object) :
    observe (processEvent user (code :: fields)) c =
      observe ((readEvent fields).handle user) c := by
  unfold readEvent
  by_cases hlen : fields.length < 3 ∨ 5 < fields.length
  · rw [if_pos hlen]
    refine observe_eq_of_rejects ?_ (rejects_malformed user c)
    unfold processEvent
    rw [if_pos (by simp only [List.length_cons]; omega)]
    simp [Rejects]
  rw [if_neg hlen]
  obtain ⟨s, p, d, rest, rfl⟩ : ∃ s p d rest, fields = s :: p :: d :: rest := by
    rcases fields with _ | ⟨s, _ | ⟨p, _ | ⟨d, rest⟩⟩⟩
    · simp at hlen
    · simp at hlen
    · simp at hlen
    · exact ⟨s, p, d, rest, rfl⟩
  have hrest : rest.length ≤ 2 := by
    simp only [List.length_cons] at hlen
    omega
  unfold processEvent
  rw [if_neg (by simp only [List.length_cons]; omega)]
  by_cases hs : s.type = .POSITIVE_INTEGER
  case neg =>
    have hread : readEventFields (s :: p :: d :: rest) = .malformed := by
      cases s <;> first | rfl | exact absurd rfl hs
    rw [hread]
    exact observe_eq_of_rejects (by simp [Rejects, hs])
      (rejects_malformed user c)
  obtain ⟨s, rfl⟩ := Object.type_eq_POSITIVE_INTEGER.mp hs
  rw [readEventFields]
  have hfound := c.session.subscriptionHandlers.found_iff s
  have hrange := c.session.subscriptionHandlers.equalRange_eq_values s
  unfold Multimap.equalRange at hrange
  cases hv : c.session.subscriptionHandlers.values s with
  | nil =>
      rw [hv] at hfound
      simp [observe, outcomeOf, Incoming.handle, hv, hfound]
  | cons h hs =>
      rw [hv] at hfound hrange
      by_cases hp : p.type = .POSITIVE_INTEGER
      case neg =>
        rw [readEventBody_of_publication_ne _ hp]
        exact observe_eq_of_rejects (by simp [Rejects, hfound, hp])
          (by simp [Rejects, Incoming.handle, hv])
      obtain ⟨p, rfl⟩ := Object.type_eq_POSITIVE_INTEGER.mp hp
      by_cases hd : d.type = .MAP
      case neg =>
        rw [readEventBody_of_details_ne p _ hd]
        exact observe_eq_of_rejects (by simp [Rejects, hfound, hd])
          (by simp [Rejects, Incoming.handle, hv])
      obtain ⟨d, rfl⟩ := Object.type_eq_MAP.mp hd
      rcases payloadAt_cases c (code :: .positiveInteger s ::
        .positiveInteger p :: .map d :: rest) 4 rest rfl (by simp) hrest
        "EVENT - EVENT.Arguments must be a list"
        "EVENT - EVENT.ArgumentsKw must be a dictionary"
        with ⟨q, hq, hrun⟩ | ⟨hq, what, hrun⟩
      · simp [observe, readEventBody, hq, hfound, hrun, Incoming.handle, hv,
          hrange]
      · apply observe_eq_of_rejects (by simp [Rejects, hfound, hrun])
        simp [readEventBody, hq, Rejects, Incoming.handle, hv]

theorem readInvocation_of_request_ne {a : Object} (tail : List Object)
    (h : a.type ≠ .POSITIVE_INTEGER) :
    readInvocation (a :: tail) = .malformed := by
  cases a <;> first | rfl | exact absurd rfl h

theorem readInvocation_of_registration_ne (i : UInt64) {b : Object}
    (tail : List Object) (h : b.type ≠ .POSITIVE_INTEGER) :
    readInvocation (.positiveInteger i :: b :: tail) = .malformed := by
  cases b <;> first | rfl | exact absurd rfl h

theorem readInvocation_of_details_ne (i g : UInt64) {d : Object}
    (rest : List Object) (h : d.type ≠ .MAP) :
    readInvocation (.positiveInteger i :: .positiveInteger g :: d :: rest) =
      .malformed := by
  cases d <;> first | rfl | exact absurd rfl h

theorem readInvocation_of_length {fields : List Object}
    (h : fields.length < 3 ∨ 5 < fields.length) :
    readInvocation fields = .malformed := by
  rcases fields with _ | ⟨a, _ | ⟨b, _ | ⟨d, rest⟩⟩⟩
  · rfl
  · cases a <;> rfl
  · cases a <;> first | rfl | (cases b <;> rfl)
  · by_cases ha : a.type = .POSITIVE_INTEGER
    case neg => exact readInvocation_of_request_ne _ ha
    obtain ⟨i, rfl⟩ := Object.type_eq_POSITIVE_INTEGER.mp ha
    by_cases hb : b.type = .POSITIVE_INTEGER
    case neg => exact readInvocation_of_registration_ne i _ hb
    obtain ⟨g, rfl⟩ := Object.type_eq_POSITIVE_INTEGER.mp hb
    by_cases hd : d.type = .MAP
    case neg => exact readInvocation_of_details_ne i g rest hd
    obtain ⟨d, rfl⟩ := Object.type_eq_MAP.mp hd
    have hrest : 2 < rest.length := by
      simp only [List.length_cons] at h
      omega
    simp [readInvocation, readPayload_of_long hrest]

theorem processInvocation_observe (fields : List Object) :
    observe (processInvocation user (code :: fields)) c =
      observe ((readInvocation fields).handle user) c := by
  by_cases hlen : fields.length < 3 ∨ 5 < fields.length
  · rw [readInvocation_of_length hlen]
    refine observe_eq_of_rejects ?_ (rejects_malformed user c)
    unfold processInvocation
    rw [if_pos (by simp only [List.length_cons]; omega)]
    simp [Rejects]
  obtain ⟨i, g, d, rest, rfl⟩ : ∃ i g d rest, fields = i :: g :: d :: rest := by
    rcases fields with _ | ⟨i, _ | ⟨g, _ | ⟨d, rest⟩⟩⟩
    · simp at hlen
    · simp at hlen
    · simp at hlen
    · exact ⟨i, g, d, rest, rfl⟩
  have hrest : rest.length ≤ 2 := by
    simp only [List.length_cons] at hlen
    omega
  unfold processInvocation
  rw [if_neg (by simp only [List.length_cons]; omega)]
  by_cases hi : i.type = .POSITIVE_INTEGER
  case neg =>
    rw [readInvocation_of_request_ne _ hi]
    exact observe_eq_of_rejects (by simp [Rejects, hi])
      (rejects_malformed user c)
  obtain ⟨i, rfl⟩ := Object.type_eq_POSITIVE_INTEGER.mp hi
  by_cases hg : g.type = .POSITIVE_INTEGER
  case neg =>
    rw [readInvocation_of_registration_ne i _ hg]
    exact observe_eq_of_rejects (by simp [Rejects, hg])
      (rejects_malformed user c)
  obtain ⟨g, rfl⟩ := Object.type_eq_POSITIVE_INTEGER.mp hg
  by_cases hd : d.type = .MAP
  case neg =>
    rw [readInvocation_of_details_ne i g _ hd]
    refine observe_eq_of_rejects ?_ (rejects_malformed user c)
    cases hr : c.session.procedures.find g <;> simp [Rejects, hr, hd]
  obtain ⟨d, rfl⟩ := Object.type_eq_MAP.mp hd
  cases hr : c.session.procedures.find g with
  | none =>
      apply observe_eq_of_rejects (by simp [Rejects, hr])
      cases hp : readPayload rest <;>
        simp [readInvocation, hp, Rejects, Incoming.handle, hr]
  | some procedure =>
      rcases payloadAt_cases c (code :: .positiveInteger i ::
        .positiveInteger g :: .map d :: rest) 4 rest rfl (by simp) hrest
        "INVOCATION.Arguments must be an array/vector"
        "INVOCATION.KwArguments must be a map"
        with ⟨q, hq, hrun⟩ | ⟨hq, what, hrun⟩
      · simp [observe, readInvocation, hq, hr, hrun, Incoming.handle]
      · apply observe_eq_of_rejects (by simp [Rejects, hr, hrun])
        simp [readInvocation, hq, Rejects, Incoming.handle]

theorem readErrorFields_of_type_ne {a : Object} (tail : List Object)
    (h : a.type ≠ .POSITIVE_INTEGER) :
    readErrorFields (a :: tail) = .malformed := by
  cases a <;> first | rfl | exact absurd rfl h

theorem readErrorBody_of_request_ne (t : UInt64) {a : Object}
    (tail : List Object) (h : a.type ≠ .POSITIVE_INTEGER) :
    readErrorBody t (a :: tail) = .malformed := by
  cases a <;> first | rfl | exact absurd rfl h

theorem readErrorBody_of_details_ne (t r : UInt64) {b : Object}
    (tail : List Object) (h : b.type ≠ .MAP) :
    readErrorBody t (.positiveInteger r :: b :: tail) = .malformed := by
  cases b <;> first | rfl | exact absurd rfl h

theorem readErrorBody_of_uri_ne (t r : UInt64) (d : List (Object × Object))
    {b : Object} (tail : List Object) (h : b.type ≠ .STR) :
    readErrorBody t (.positiveInteger r :: .map d :: b :: tail) =
      .malformed := by
  cases b <;> first | rfl | exact absurd rfl h

/-- The text an ERROR without keyword arguments gives. -/
theorem errorText_empty (uri : Octets) : errorText uri EMPTY_KW_ARGUMENTS = uri :=
  rfl

theorem routeError_observe (t r : UInt64) (text : Octets) :
    observe (routeError t r text) c =
      observe ((if t = MessageType.CALL.code then Incoming.callError r text
        else .ignored).handle user) c := by
  by_cases ht : t = MessageType.CALL.code
  · cases hr : c.session.calls.find r <;>
      simp [observe, outcomeOf, routeError, ht, Incoming.handle, hr]
  · simp [observe, outcomeOf, routeError, ht, Incoming.handle]

/-- `errorTextAt` reads the optional tail as `readPayload` does. -/
theorem errorTextAt_cases (message : List Object) (rest : List Object)
    (uri : Octets) (hdrop : message.drop 5 = rest) (hi : 5 ≤ message.length)
    (hlen : rest.length ≤ 2) :
    (∃ p, readPayload rest = some p ∧
      (errorTextAt message uri).run c = (.ok (errorText uri p.2), c)) ∨
    (readPayload rest = none ∧ Rejects (errorTextAt message uri) c) := by
  have hlength : message.length = 5 + rest.length := by
    rw [← hdrop, List.length_drop]
    omega
  have hget : ∀ j, message[5 + j]? = rest[j]? := by
    intro j
    rw [← hdrop, List.getElem?_drop]
  rcases rest with _ | ⟨a, _ | ⟨b, _ | ⟨d, rest⟩⟩⟩
  · simp [errorTextAt, readPayload, hlength, errorText_empty]
  · have h0 : message[5]? = some a := hget 0
    rw [readPayload_singleton]
    by_cases ha : a.type = .ARRAY <;>
      simp [errorTextAt, Rejects, hlength, ha, -checkType, run_checkType c h0,
        errorText_empty]
  · have h0 : message[5]? = some a := hget 0
    have h1 : message[6]? = some b := hget 1
    rw [readPayload_pair]
    by_cases ha : a.type = .ARRAY <;> by_cases hb : b.type = .MAP <;>
      simp [errorTextAt, Rejects, hlength, ha, hb, -checkType,
        run_checkType c h0, run_checkType c h1, -element, run_element c h1]
  · simp at hlen

theorem run_checkRequestType (t : UInt64) :
    (isErrorType t ∧ (checkRequestType t).run c = (.ok (), c)) ∨
    (¬ isErrorType t ∧ Rejects (checkRequestType t) c) := by
  unfold checkRequestType isErrorType
  by_cases h : t ≠ MessageType.CALL.code ∧ t ≠ MessageType.REGISTER.code ∧
      t ≠ MessageType.UNREGISTER.code ∧ t ≠ MessageType.PUBLISH.code ∧
      t ≠ MessageType.SUBSCRIBE.code ∧ t ≠ MessageType.UNSUBSCRIBE.code
  · rw [if_pos h]
    exact .inr ⟨by tauto, rejects_protocolError c _⟩
  · rw [if_neg h]
    exact .inl ⟨by tauto, rfl⟩

theorem processError_observe (fields : List Object) :
    observe (processError (code :: fields)) c =
      observe ((readError fields).handle user) c := by
  unfold readError
  by_cases hlen : fields.length < 4 ∨ 6 < fields.length
  · rw [if_pos hlen]
    refine observe_eq_of_rejects ?_ (rejects_malformed user c)
    unfold processError
    rw [if_pos (by simp only [List.length_cons]; omega)]
    exact (rejects_protocolError c _).bind _
  rw [if_neg hlen]
  obtain ⟨t, r, d, uri, rest, rfl⟩ :
      ∃ t r d uri rest, fields = t :: r :: d :: uri :: rest := by
    rcases fields with _ | ⟨t, _ | ⟨r, _ | ⟨d, _ | ⟨uri, rest⟩⟩⟩⟩
    · simp at hlen
    · simp at hlen
    · simp at hlen
    · simp at hlen
    · exact ⟨t, r, d, uri, rest, rfl⟩
  have hrest : rest.length ≤ 2 := by
    simp only [List.length_cons] at hlen
    omega
  unfold processError
  rw [if_neg (by simp only [List.length_cons]; omega)]
  by_cases ht : t.type = .POSITIVE_INTEGER
  case neg =>
    rw [readErrorFields_of_type_ne _ ht]
    exact observe_eq_of_rejects (by simp [Rejects, ht])
      (rejects_malformed user c)
  obtain ⟨t, rfl⟩ := Object.type_eq_POSITIVE_INTEGER.mp ht
  rw [readErrorFields]
  by_cases hmax : intMax < t
  · have hmax' : ¬ t ≤ intMax := not_le.mpr hmax
    simp [observe, outcomeOf, hmax, hmax', Incoming.handle]
  rw [if_neg hmax]
  have hmax' : t ≤ intMax := not_lt.mp hmax
  rcases run_checkRequestType c t with ⟨hty, htype⟩ | ⟨hty, what, htype⟩
  case inr =>
    rw [if_neg hty]
    exact observe_eq_of_rejects (by simp [Rejects, hmax', htype])
      (rejects_malformed user c)
  rw [if_pos hty]
  by_cases hr : r.type = .POSITIVE_INTEGER
  case neg =>
    rw [readErrorBody_of_request_ne t _ hr]
    exact observe_eq_of_rejects (by simp [Rejects, hmax', htype, hr])
      (rejects_malformed user c)
  obtain ⟨r, rfl⟩ := Object.type_eq_POSITIVE_INTEGER.mp hr
  by_cases hd : d.type = .MAP
  case neg =>
    rw [readErrorBody_of_details_ne t r _ hd]
    exact observe_eq_of_rejects (by simp [Rejects, hmax', htype, hd])
      (rejects_malformed user c)
  obtain ⟨d, rfl⟩ := Object.type_eq_MAP.mp hd
  by_cases hu : uri.type = .STR
  case neg =>
    rw [readErrorBody_of_uri_ne t r d _ hu]
    exact observe_eq_of_rejects (by simp [Rejects, hmax', htype, hu])
      (rejects_malformed user c)
  obtain ⟨uri, rfl⟩ := Object.type_eq_STR.mp hu
  rw [readErrorBody]
  rcases errorTextAt_cases c (code :: .positiveInteger t ::
    .positiveInteger r :: .map d :: .str uri :: rest) rest uri rfl (by simp)
    hrest with ⟨p, hp, hrun⟩ | ⟨hp, what, hrun⟩
  · have hroute := routeError_observe user c t r (errorText uri p.2)
    rw [hp]
    simpa [observe, hmax', htype, hrun] using hroute
  · rw [hp]
    exact observe_eq_of_rejects (by simp [Rejects, hmax', htype, hrun])
      (rejects_malformed user c)

/-! ## Dispatch -/

/-- **The receive path does what the object asks for**, up to the text of a
`protocol_error`. -/
theorem gotMessage_observe (obj : Object) :
    observe (gotMessage user obj) c =
      observe ((Incoming.read obj).handle user) c := by
  by_cases harr : obj.type = .ARRAY
  case neg =>
    have hread : Incoming.read obj = .malformed := by
      cases obj <;> first | rfl | exact absurd rfl harr
    rw [hread]
    refine observe_eq_of_rejects ?_ (rejects_malformed user c)
    cases obj <;> first | exact rejects_protocolError c _ | exact absurd rfl harr
  obtain ⟨message, rfl⟩ := Object.type_eq_ARRAY.mp harr
  rcases message with _ | ⟨o, fields⟩
  · exact observe_eq_of_rejects ((rejects_protocolError c _).bind _)
      (rejects_malformed user c)
  by_cases ho : o.type = .POSITIVE_INTEGER
  case neg =>
    have hread : Incoming.read (.array (o :: fields)) = .malformed := by
      cases o <;> first | rfl | exact absurd rfl ho
    rw [hread]
    exact observe_eq_of_rejects (by simp [Rejects, gotMessage, ho])
      (rejects_malformed user c)
  obtain ⟨n, rfl⟩ := Object.type_eq_POSITIVE_INTEGER.mp ho
  by_cases hmax : intMax < n
  · have hmax' : ¬ n ≤ intMax := not_le.mpr hmax
    simp [observe, outcomeOf, gotMessage, Incoming.read, Incoming.handle, hmax,
      hmax']
  have hmax' : n ≤ intMax := not_lt.mp hmax
  cases hcode : MessageType.ofCode? n with
  | none =>
      simp [observe, outcomeOf, gotMessage, Incoming.read, Incoming.handle, hmax,
        hmax', hcode]
  | some t =>
      have hread : Incoming.read (.array (.positiveInteger n :: fields)) =
          readFields t fields := by
        simp [Incoming.read, hmax, hcode]
      rw [hread]
      have hrun : ∀ p : ClientM Unit,
          (gotMessage user (.array (.positiveInteger n :: fields))).run c =
            p.run c →
          observe p c = observe ((readFields t fields).handle user) c →
          observe (gotMessage user (.array (.positiveInteger n :: fields))) c =
            observe ((readFields t fields).handle user) c := by
        intro p hp h
        rw [← h, observe, hp]
        rfl
      cases t
      case WELCOME =>
        exact hrun (processWelcome (.positiveInteger n :: fields))
          (by simp [gotMessage, hmax', hcode])
          (processWelcome_observe user c _ fields)
      case GOODBYE =>
        exact hrun (processGoodbye (.positiveInteger n :: fields))
          (by simp [gotMessage, hmax', hcode])
          (processGoodbye_observe user c _ fields)
      case ERROR =>
        exact hrun (processError (.positiveInteger n :: fields))
          (by simp [gotMessage, hmax', hcode])
          (processError_observe user c _ fields)
      case SUBSCRIBED =>
        exact hrun (processSubscribed (.positiveInteger n :: fields))
          (by simp [gotMessage, hmax', hcode])
          (processSubscribed_observe user c _ fields)
      case UNSUBSCRIBED =>
        exact hrun (processUnsubscribed (.positiveInteger n :: fields))
          (by simp [gotMessage, hmax', hcode])
          (processUnsubscribed_observe user c _ fields)
      case EVENT =>
        exact hrun (processEvent user (.positiveInteger n :: fields))
          (by simp [gotMessage, hmax', hcode])
          (processEvent_observe user c _ fields)
      case RESULT =>
        exact hrun (processCallResult (.positiveInteger n :: fields))
          (by simp [gotMessage, hmax', hcode])
          (processCallResult_observe user c _ fields)
      case REGISTERED =>
        exact hrun (processRegistered (.positiveInteger n :: fields))
          (by simp [gotMessage, hmax', hcode])
          (processRegistered_observe user c _ fields)
      case INVOCATION =>
        exact hrun (processInvocation user (.positiveInteger n :: fields))
          (by simp [gotMessage, hmax', hcode])
          (processInvocation_observe user c _ fields)
      all_goals
        simp [observe, outcomeOf, gotMessage, readFields, Incoming.handle,
          hmax', hcode]

end Refinement

end Autobahn
