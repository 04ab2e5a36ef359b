import Autobahn.Session.Acts
import Autobahn.Session.IoService

/-!
# Handlers up to user code

`eventOf`, `invocationOf` and `codeOf` are the first parts of `process_event`,
`process_invocation` and `got_message`: each handler fails where its first part
does and goes on from its result (`Exec.Begins`). Only EVENT and INVOCATION go
on to user code (`Client.Uncalled`).
-/

namespace Autobahn

open Foundation MsgPack Conversion

/-! ## Checks only read the session -/

theorem reads_element (message : WampMessage) (i : Nat) :
    Exec.Moves Eq (element message i) := by
  unfold element
  split
  · exact .pure _
  · exact .throw _

theorem reads_converted {α : Type} (x : Except Exn α) :
    Exec.Moves Eq (converted x) := by
  cases x with
  | ok a => exact .pure a
  | error e => exact .throw _

theorem reads_checkType (message : WampMessage) (i : Nat) (t : ObjectType)
    (what : String) : Exec.Moves Eq (checkType message i t what) :=
  .bind (reads_element message i) fun _ => .ite (fun _ => .throw _) fun _ => .pure _

theorem reads_payloadAt (message : WampMessage) (i : Nat)
    (notList notMap : String) :
    Exec.Moves Eq (payloadAt message i notList notMap) :=
  .ite
    (fun _ => .bind (reads_checkType _ _ _ _) fun _ =>
      .bind (reads_element _ _) fun _ => .ite
        (fun _ => .bind (reads_checkType _ _ _ _) fun _ =>
          .bind (reads_element _ _) fun _ => .pure _)
        fun _ => .pure _)
    fun _ => .pure _

theorem reads_errorTextAt (message : WampMessage) (uri : Octets) :
    Exec.Moves Eq (errorTextAt message uri) :=
  .ite
    (fun _ => .bind (reads_checkType _ _ _ _) fun _ => .ite
      (fun _ => .bind (reads_checkType _ _ _ _) fun _ =>
        .bind (reads_element _ _) fun _ => .pure _)
      fun _ => .pure _)
    fun _ => .pure _

theorem reads_checkRequestType (requestType : UInt64) :
    Exec.Moves Eq (checkRequestType requestType) :=
  .ite (fun _ => .throw _) fun _ => .pure _

/-! ## Handlers that call no user code -/

/-- No user code is called, and the session stays. -/
structure Client.Uncalled (c d : Client) : Prop where
  callbacks : d.callbacks = c.callbacks
  alive : d.alive = c.alive

theorem Client.Uncalled.refl (c : Client) : c.Uncalled c := ⟨rfl, rfl⟩

instance : Std.Refl Client.Uncalled := ⟨Client.Uncalled.refl⟩

instance : IsTrans Client Client.Uncalled :=
  ⟨fun _ _ _ h h' =>
    ⟨h'.callbacks.trans h.callbacks, h'.alive.trans h.alive⟩⟩

theorem Acts.uncalled {c d : Client} (h : Acts c d) : c.Uncalled d :=
  ⟨h.routing.2.2.1, h.routing.2.2.2⟩

section Uncalled

theorem modifySession_uncalled (f : WampSession → WampSession) :
    Exec.Moves Client.Uncalled (modifySession f) :=
  .modify fun _ => ⟨rfl, rfl⟩

theorem settle_uncalled {α : Type} (p : Promise Exn α) (r : Except Exn α)
    (store : Promise Exn α → WampSession → WampSession) :
    Exec.Moves Client.Uncalled (settle p r store) :=
  settle_moves fun _ _ => ⟨rfl, rfl⟩

theorem settleRequest_uncalled (ref : Nat) (r : Except Exn Reply) :
    Exec.Moves Client.Uncalled (settleRequest ref r) := by
  refine .bind .get fun c => ?_
  split
  · exact .throw _
  · split
    · exact .modify fun _ => ⟨rfl, rfl⟩
    · exact .throw _

variable (message : WampMessage)

theorem processWelcome_uncalled :
    Exec.Moves Client.Uncalled (processWelcome message) :=
  .bind (.of_eq (reads_element _ _)) fun _ =>
    .bind (.of_eq (reads_converted _)) fun _ =>
    .bind (modifySession_uncalled _) fun _ =>
    .bind .get fun _ => settle_uncalled _ _ _

theorem closeSession_uncalled : Exec.Moves Client.Uncalled closeSession :=
  .bind (modifySession_uncalled _) fun _ =>
    .bind .get fun _ => .ite (fun _ => modifySession_uncalled _) fun _ => .pure _

theorem processGoodbye_uncalled :
    Exec.Moves Client.Uncalled (processGoodbye message) :=
  .bind closeSession_uncalled fun _ =>
    .bind (.of_eq (reads_element _ _)) fun _ =>
    .bind (.of_eq (reads_converted _)) fun _ =>
    .bind .get fun _ => settle_uncalled _ _ _

theorem routeError_uncalled (requestType requestId : UInt64) (error : Octets) :
    Exec.Moves Client.Uncalled (routeError requestType requestId error) := by
  refine .ite (fun _ => .bind .get fun c => ?_) fun _ => .pure _
  split
  · exact settleRequest_uncalled _ _
  · exact .throw _

theorem processError_uncalled :
    Exec.Moves Client.Uncalled (processError message) :=
  .check (.throw _) fun _ => .bind (.of_eq (reads_checkType _ _ _ _)) fun _ =>
    .bind (.of_eq (reads_element _ _)) fun _ =>
    .bind (.of_eq (reads_converted _)) fun _ =>
    .bind (.of_eq (reads_checkRequestType _)) fun _ =>
    .bind (.of_eq (reads_checkType _ _ _ _)) fun _ =>
    .bind (.of_eq (reads_element _ _)) fun _ =>
    .bind (.of_eq (reads_converted _)) fun _ =>
    .bind (.of_eq (reads_checkType _ _ _ _)) fun _ =>
    .bind (.of_eq (reads_checkType _ _ _ _)) fun _ =>
    .bind (.of_eq (reads_element _ _)) fun _ =>
    .bind (.of_eq (reads_converted _)) fun _ =>
    .bind (.of_eq (reads_errorTextAt _ _)) fun _ => routeError_uncalled _ _ _

/-- The replies have one shape: a length, the request id, and what the table
has under it. -/
theorem reply_uncalled {c : Prop} [Decidable c] {length what : String}
    {next : UInt64 → ClientM Unit}
    (h : ∀ requestId, Exec.Moves Client.Uncalled (next requestId)) :
    Exec.Moves Client.Uncalled (do
      if c then
        protocolError length
      checkType message 1 .POSITIVE_INTEGER what
      let requestId ← converted (asUInt64 (← element message 1))
      next requestId) :=
  .check (.throw _) fun _ => .bind (.of_eq (reads_checkType _ _ _ _)) fun _ =>
    .bind (.of_eq (reads_element _ _)) fun _ =>
    .bind (.of_eq (reads_converted _)) h

theorem processCallResult_uncalled :
    Exec.Moves Client.Uncalled (processCallResult message) := by
  refine reply_uncalled message fun _ => .bind .get fun c => ?_
  split
  · exact .bind (.of_eq (reads_checkType _ _ _ _)) fun _ =>
      .bind (.of_eq (reads_payloadAt _ _ _ _)) fun _ => settleRequest_uncalled _ _
  · exact .throw _

theorem processSubscribed_uncalled :
    Exec.Moves Client.Uncalled (processSubscribed message) := by
  refine reply_uncalled message fun _ => .bind .get fun c => ?_
  split
  · exact .bind (.of_eq (reads_checkType _ _ _ _)) fun _ =>
      .bind (.of_eq (reads_element _ _)) fun _ =>
      .bind (.of_eq (reads_converted _)) fun _ =>
      .bind (modifySession_uncalled _) fun _ =>
      .bind (settleRequest_uncalled _ _) fun _ => modifySession_uncalled _
  · exact .throw _

theorem processUnsubscribed_uncalled :
    Exec.Moves Client.Uncalled (processUnsubscribed message) := by
  refine reply_uncalled message fun _ => .bind .get fun c => ?_
  split
  · exact .bind (settleRequest_uncalled _ _) fun _ => modifySession_uncalled _
  · exact .throw _

theorem processRegistered_uncalled :
    Exec.Moves Client.Uncalled (processRegistered message) := by
  refine reply_uncalled message fun _ => .bind .get fun c => ?_
  split
  · exact .bind (.of_eq (reads_checkType _ _ _ _)) fun _ =>
      .bind (.of_eq (reads_element _ _)) fun _ =>
      .bind (.of_eq (reads_converted _)) fun _ =>
      .bind (modifySession_uncalled _) fun _ => settleRequest_uncalled _ _
  · exact .throw _

end Uncalled

namespace IoService

/-! ## What the handlers go on to -/

/-- The rest of `process_event`: nothing, or the loop over a range of the
table. -/
def EventGoesOn (c : Client) (r : Option (WampEvent × Nat × Nat)) (d : Client)
    (run : UserCode → Except Abort Unit × Client) : Prop :=
  d = c ∧ match r with
    | none => ∀ user, run user = (.ok (), c)
    | some (event, itr, n) =>
        itr + n ≤ c.session.subscriptionHandlers.finish ∧
        ∀ user, run user = (Autobahn.swallow (Autobahn.callHandlers user event 0
          (c.session.subscriptionHandlers.between itr (itr + n)))).run c

theorem eventOf_begins (message : WampMessage) (c : Client) :
    Exec.Begins (EventGoesOn c) (eventOf message)
      (fun user => Autobahn.processEvent user message) c := by
  unfold eventOf Autobahn.processEvent
  refine .check (.throw _) fun _ => ?_
  refine .bind (reads_checkType _ _ _ _) fun _ => ?_
  refine .bind (reads_element _ _) fun o => ?_
  refine .bind (reads_converted _) fun id => ?_
  refine .get (.ite (fun _ => ?_) fun _ => .pure ⟨rfl, fun _ => rfl⟩)
  refine .bind (reads_checkType _ _ _ _) fun _ => ?_
  refine .bind (reads_checkType _ _ _ _) fun _ => ?_
  refine .bind (reads_payloadAt _ _ _ _) fun p => ?_
  have hle := c.session.subscriptionHandlers.lowerBound_le_upperBound id
  have hfin := c.session.subscriptionHandlers.upperBound_le_finish id
  refine .pure ⟨rfl, by omega, fun user => ?_⟩
  rw [Nat.add_sub_cancel' hle]

/-- The rest of `process_invocation`: the call of a procedure in the table. -/
def InvocationGoesOn (c : Client) (r : UInt64 × Nat) (d : Client)
    (run : UserCode → Except Abort Unit × Client) : Prop :=
  c.Uncalled d ∧ ∃ procedure,
    d.session.procedures.find r.1 = some procedure ∧
    ∀ user, run user = (Autobahn.callProcedure procedure r.2 (user 0)).run d

theorem invocationOf_begins (message : WampMessage) (c : Client) :
    Exec.Begins (InvocationGoesOn c) (invocationOf message)
      (fun user => Autobahn.processInvocation user message) c := by
  unfold invocationOf Autobahn.processInvocation
  refine .check (.throw _) fun _ => ?_
  refine .bind (reads_checkType _ _ _ _) fun _ => ?_
  refine .bind (reads_element _ _) fun o => ?_
  refine .bind (reads_converted _) fun requestId => ?_
  refine .bind (reads_checkType _ _ _ _) fun _ => ?_
  refine .bind (reads_element _ _) fun o => ?_
  refine .bind (reads_converted _) fun registrationId => ?_
  refine .get ?_
  cases hp : c.session.procedures.find registrationId with
  | none => exact .throw _
  | some procedure =>
  refine .bind (reads_checkType _ _ _ _) fun _ => ?_
  refine .bind (reads_element _ _) fun _ => ?_
  refine .bind (reads_payloadAt _ _ _ _) fun p => ?_
  exact .inr ⟨_, _, rfl, ⟨rfl, rfl⟩, procedure, hp, fun _ => rfl⟩

/-- The `switch` of `got_message`: user code has a part in two of its cases. -/
def CodeGoesOn (c : Client) (r : Option MessageType × WampMessage) (d : Client)
    (run : UserCode → Except Abort Unit × Client) : Prop :=
  d = c ∧ match r.1 with
    | some .EVENT => ∀ user, run user = (Autobahn.processEvent user r.2).run c
    | some .INVOCATION =>
        ∀ user, run user = (Autobahn.processInvocation user r.2).run c
    | _ => (∀ user, run user = run fun _ => {}) ∧ c.Uncalled (run fun _ => {}).2

theorem codeOf_begins (obj : Object) (c : Client) :
    Exec.Begins (CodeGoesOn c) (codeOf obj)
      (fun user => Autobahn.gotMessage user obj) c := by
  cases obj with
  | array message =>
      unfold codeOf Autobahn.gotMessage
      refine .check (.throw _) fun _ => ?_
      refine .bind (reads_checkType _ _ _ _) fun _ => ?_
      refine .bind (reads_element _ _) fun o => ?_
      refine .bind (reads_converted _) fun code => ?_
      cases MessageType.ofCode? code with
      | none => exact .pure ⟨rfl, fun _ => rfl, .refl c⟩
      | some t =>
      cases t
      case EVENT => exact .pure ⟨rfl, fun _ => rfl⟩
      case INVOCATION => exact .pure ⟨rfl, fun _ => rfl⟩
      case WELCOME =>
        exact .pure ⟨rfl, fun _ => rfl, processWelcome_uncalled message c⟩
      case GOODBYE =>
        exact .pure ⟨rfl, fun _ => rfl, processGoodbye_uncalled message c⟩
      case ERROR =>
        exact .pure ⟨rfl, fun _ => rfl, processError_uncalled message c⟩
      case SUBSCRIBED =>
        exact .pure ⟨rfl, fun _ => rfl, processSubscribed_uncalled message c⟩
      case UNSUBSCRIBED =>
        exact .pure ⟨rfl, fun _ => rfl, processUnsubscribed_uncalled message c⟩
      case RESULT =>
        exact .pure ⟨rfl, fun _ => rfl, processCallResult_uncalled message c⟩
      case REGISTERED =>
        exact .pure ⟨rfl, fun _ => rfl, processRegistered_uncalled message c⟩
      all_goals exact .pure ⟨rfl, fun _ => rfl, .refl c⟩
  | _ => exact .throw _

end IoService

end Autobahn
