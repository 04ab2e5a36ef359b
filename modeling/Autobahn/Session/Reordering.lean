import Autobahn.Foundation.Partial
import Autobahn.Session.Acceptance

/-!
# The order of independent replies

Two replies are independent if they answer different requests and do not
install something under one id. Every reply does the same three things: it
settles the promise of its entry, installs what the entry holds, and may erase
the entry. For independent replies these changes commute, so a list of them is
accepted in every order or in none, with the same result
(`Client.Reachable.reordered`).
-/

namespace Autobahn

open Foundation MsgPack Relation

/-! ## What a reply does -/

/-- The replies, with the request each one answers and what it puts into the
promise. -/
inductive Incoming.Replies :
    Incoming → RequestKind → UInt64 → Except Exn Reply → Prop
  | callError (r : UInt64) (text : Octets) :
      Replies (.callError r text) .call r (.error (.runtimeError text))
  | result (r : UInt64) (value : WampCallResult) :
      Replies (.result r value) .call r (.ok (.result value))
  | subscribed (r s : UInt64) :
      Replies (.subscribed r s) .subscribe r (.ok (.subscription s))
  | unsubscribed (r : UInt64) :
      Replies (.unsubscribed r) .unsubscribe r (.ok .unsubscribed)
  | registered (r g : UInt64) :
      Replies (.registered r g) .register r (.ok (.registration g))

/-- What a reply changes in the tables, apart from the promise: it installs
what the entry holds, and some replies erase the entry. -/
def Incoming.install (i : Incoming) (entry : Entry) (s : WampSession) :
    WampSession :=
  match i, entry with
  | .subscribed r id, .subscribe handler =>
      { s with
        subscriptionHandlers := s.subscriptionHandlers.insert id handler
        subscribeRequests := s.subscribeRequests.erase r }
  | .unsubscribed r, .unsubscribe =>
      { s with unsubscribeRequests := s.unsubscribeRequests.erase r }
  | .registered _ g, .register procedure =>
      { s with procedures := s.procedures.assign g procedure }
  | _, _ => s

/-- The state after an accepted reply. -/
def Client.takeReply (c : Client) (ref : Nat) (o : Except Exn Reply)
    (f : WampSession → WampSession) : Client :=
  (c.settled ref o).setSession (f c.session)

section

variable {c d : Client} {i j : Incoming} {k k' : RequestKind} {r r' : UInt64}
  {o o' : Except Exn Reply} {ref ref' : Nat} {entry entry' : Entry}

/-- **A reply is accepted exactly when its request is in its table and
unsettled**, and then does the one thing every reply does. -/
theorem Client.Coherent.handle_ok_iff (hc : c.Coherent) (ha : c.alive = true)
    (user : UserCode) (hi : i.Replies k r o) :
    (i.handle user).run c = (.ok (), d) ↔
      ∃ ref entry, c.session.entryAt k r = some (ref, entry) ∧
        c.Unsettled ref ∧ d = c.takeReply ref o (i.install entry) := by
  cases hi with
  | callError r text =>
      cases he : c.session.calls.find r with
      | none => simp [run_callError_none user he, WampSession.entryAt, he]
      | some e =>
          have hentry := WampSession.entryAt_call he
          rw [run_callError user he, hentry]
          rcases hc.run_settleRequest hentry (.error (.runtimeError text)) with
            ⟨hq, hrun⟩ | ⟨hq, hrun⟩
          · simp [hrun, hq, eq_comm, takeReply, Incoming.install,
              Client.setSession, Client.settled, Client.modifyRequest]
          · simp [hrun, hq]
  | result r value =>
      cases he : c.session.calls.find r with
      | none => simp [run_result_none user he, WampSession.entryAt, he]
      | some e =>
          have hentry := WampSession.entryAt_call he
          rw [run_result user he, hentry]
          rcases hc.run_settleRequest hentry (.ok (.result value)) with
            ⟨hq, hrun⟩ | ⟨hq, hrun⟩
          · simp [hrun, hq, eq_comm, takeReply, Incoming.install,
              Client.setSession, Client.settled, Client.modifyRequest]
          · simp [hrun, hq]
  | subscribed r s =>
      cases he : c.session.subscribeRequests.find r with
      | none => simp [run_subscribed_none user he, WampSession.entryAt, he]
      | some e =>
          have hentry := WampSession.entryAt_subscribe he
          have hq := hc.waiting ha hentry (.inl rfl)
          rw [hc.run_subscribed user ha s he, hentry]
          simp [hq, eq_comm, takeReply, Incoming.install, Client.setSession,
            Client.settled, Client.modifyRequest, Client.eraseSubscribe,
            Client.installHandler]
  | unsubscribed r =>
      cases he : c.session.unsubscribeRequests.find r with
      | none => simp [run_unsubscribed_none user he, WampSession.entryAt, he]
      | some e =>
          have hentry := WampSession.entryAt_unsubscribe he
          have hq := hc.waiting ha hentry (.inr rfl)
          rw [hc.run_unsubscribed user ha he, hentry]
          simp [hq, eq_comm, takeReply, Incoming.install, Client.setSession,
            Client.settled, Client.modifyRequest, Client.eraseUnsubscribe]
  | registered r g =>
      cases he : c.session.registerRequests.find r with
      | none => simp [run_registered_none user he, WampSession.entryAt, he]
      | some e =>
          have hentry := WampSession.entryAt_register he
          rw [hentry]
          rcases hc.run_registered_cases user g he with
            ⟨hq, hrun⟩ | ⟨hq, hrun⟩
          · simp [hrun, hq, eq_comm, takeReply, Incoming.install,
              Client.setSession, Client.settled, Client.modifyRequest,
              Client.installProcedure]
          · simp [hrun, hq]

/-! ## Replies that do not touch each other -/

/-- Two replies install nothing under one id. -/
def Incoming.Apart (i j : Incoming) : Prop :=
  (∀ r r' s, i = .subscribed r s → j ≠ .subscribed r' s) ∧
  ∀ r r' g, i = .registered r g → j ≠ .registered r' g

theorem Incoming.Replies.entryAt_install (hi : i.Replies k r o)
    (hne : ¬ (k = k' ∧ r = r')) (s : WampSession) :
    (i.install entry s).entryAt k' r' = s.entryAt k' r' := by
  cases hi <;> cases entry <;> cases k' <;>
    simp_all [Incoming.install, WampSession.entryAt, Table.find_erase, eq_comm]

theorem Incoming.Replies.install_comm (hi : i.Replies k r o)
    (hj : j.Replies k' r' o') (hapart : i.Apart j) (s : WampSession) :
    i.install entry (j.install entry' s) =
      j.install entry' (i.install entry s) := by
  cases hi with
  | callError => rfl
  | result => rfl
  | subscribed r id =>
      cases entry with
      | subscribe handler =>
          cases hj with
          | subscribed r' id' =>
              cases entry' with
              | subscribe handler' =>
                  have hid : id' ≠ id := by
                    rintro rfl
                    exact hapart.1 _ _ _ rfl rfl
                  simp [Incoming.install, Multimap.insert_comm _ hid,
                    Table.erase_comm _ r r']
              | _ => rfl
          | _ => cases entry' <;> rfl
      | _ => rfl
  | unsubscribed r =>
      cases entry with
      | unsubscribe =>
          cases hj with
          | unsubscribed r' =>
              cases entry' with
              | unsubscribe => simp [Incoming.install, Table.erase_comm _ r r']
              | _ => rfl
          | _ => cases entry' <;> rfl
      | _ => rfl
  | registered r g =>
      cases entry with
      | register procedure =>
          cases hj with
          | registered r' g' =>
              cases entry' with
              | register procedure' =>
                  have hg : g' ≠ g := by
                    rintro rfl
                    exact hapart.2 _ _ _ rfl rfl
                  simp [Incoming.install, Table.assign_comm _ hg]
              | _ => rfl
          | _ => cases entry' <;> rfl
      | _ => rfl

/-- Different requests have different promises. -/
theorem Client.Coherent.ref_ne (hc : c.Coherent)
    (h : c.session.entryAt k r = some (ref, entry))
    (h' : c.session.entryAt k' r' = some (ref', entry'))
    (hne : ¬ (k = k' ∧ r = r')) : ref ≠ ref' := by
  rintro rfl
  obtain ⟨q, hq, hm, hr, -⟩ := hc.entries h
  obtain ⟨q', hq', hm', hr', -⟩ := hc.entries h'
  rw [hq] at hq'
  obtain rfl := Option.some.inj hq'
  refine hne ⟨?_, hr.symm.trans hr'⟩
  rw [← WampSession.entryAt_kind h, ← WampSession.entryAt_kind h', ← hm.kind,
    ← hm'.kind]

theorem Client.takeReply_unsettled (f : WampSession → WampSession)
    (hne : ref ≠ ref') :
    (c.takeReply ref o f).Unsettled ref' ↔ c.Unsettled ref' := by
  have hget := Client.getElem?_modifyRequest c ref ref'
    fun q => { q with promise := { q.promise with outcome := some o } }
  rw [if_neg hne] at hget
  have heq : (c.takeReply ref o f).requests[ref']? = c.requests[ref']? := hget
  simp only [Client.Unsettled, heq]

/-- Two replies with different promises and commuting changes commute. -/
theorem Client.takeReply_comm (hne : ref ≠ ref')
    {f g : WampSession → WampSession}
    (hcomm : g (f c.session) = f (g c.session)) :
    (c.takeReply ref o f).takeReply ref' o' g =
      (c.takeReply ref' o' g).takeReply ref o f := by
  have hreq := List.modify_modify_ne
    (fun q : Request => { q with promise := { q.promise with outcome := some o } })
    (fun q : Request => { q with promise := { q.promise with outcome := some o' } })
    c.requests hne
  simp only [Client.takeReply, Client.settled, Client.modifyRequest,
    Client.setSession, hcomm, hreq]

/-- **The step**: two independent replies that are accepted one after the
other are accepted the other way round, with the same result. -/
theorem Client.Coherent.swap {e : Client} (hc : c.Coherent)
    (ha : c.alive = true) (hd : d.Coherent) (user user' : UserCode)
    (hi : i.Replies k r o) (hj : j.Replies k' r' o')
    (hne : ¬ (k = k' ∧ r = r')) (hapart : i.Apart j)
    (hfirst : (i.handle user).run c = (.ok (), d))
    (hsecond : (j.handle user').run d = (.ok (), e))
    (keep : ∀ {d'}, (j.handle user').run c = (.ok (), d') → d'.Coherent) :
    ∃ d', (j.handle user').run c = (.ok (), d') ∧
      (i.handle user).run d' = (.ok (), e) := by
  obtain ⟨ref, entry, hentry, hq, rfl⟩ := (hc.handle_ok_iff ha user hi).mp hfirst
  obtain ⟨ref', entry', hentry', hq', rfl⟩ :=
    (hd.handle_ok_iff ha user' hj).mp hsecond
  have hentry'' : c.session.entryAt k' r' = some (ref', entry') :=
    (hi.entryAt_install hne c.session).symm.trans hentry'
  have hrefs := hc.ref_ne hentry hentry'' hne
  have hj' : (j.handle user').run c =
      (.ok (), c.takeReply ref' o' (j.install entry')) :=
    (hc.handle_ok_iff ha user' hj).mpr
      ⟨ref', entry', hentry'', (Client.takeReply_unsettled _ hrefs).mp hq', rfl⟩
  refine ⟨_, hj', ((keep hj').handle_ok_iff ha user hi).mpr
    ⟨ref, entry, ?_, ?_, ?_⟩⟩
  · have hne' : ¬ (k' = k ∧ r' = r) := fun h => hne ⟨h.1.symm, h.2.symm⟩
    exact (hj.entryAt_install hne' c.session).trans hentry
  · exact (Client.takeReply_unsettled _ hrefs.symm).mpr hq
  · exact Client.takeReply_comm hrefs
      (hi.install_comm hj hapart c.session).symm

end

/-! ## Reordering received messages -/

/-- A message, with the user code that runs if it calls any. -/
abbrev Received : Type := Object × UserCode

/-- `got_message`, as a step that refuses a message by throwing. -/
def Client.got? (c : Client) (m : Received) : Option Client :=
  match (gotMessage m.2 m.1).run c with
  | (.ok (), d) => some d
  | (.error _, _) => none

/-- Two messages reply to different requests, and two SUBSCRIBED or two
REGISTERED carry different ids. -/
structure Independent (a b : Object) : Prop where
  request : replyTo a ≠ replyTo b
  granted : ∀ {k r r'}, replyTo a = some (k, r) → replyTo b = some (k, r') →
    k = .subscribe ∨ k = .register → grantedId a ≠ grantedId b

theorem Independent.symm {a b : Object} (h : Independent a b) :
    Independent b a where
  request := h.request.symm
  granted := fun ha hb hk => (h.granted hb ha hk).symm

section

variable {c d : Client} {m m' : Received}

theorem Client.got?_eq_some :
    c.got? m = some d ↔
      ((Incoming.read m.1).handle m.2).run c = (.ok (), d) := by
  have hobs := gotMessage_observe m.2 c m.1
  unfold Client.got?
  rcases hg : (gotMessage m.2 m.1).run c with ⟨a | u, e⟩ <;>
    rcases hh : ((Incoming.read m.1).handle m.2).run c with ⟨b | v, e'⟩ <;>
    simp only [observe, hg, hh, Prod.mk.injEq] at hobs <;>
    obtain ⟨hout, rfl⟩ := hobs
  · simp
  · obtain ⟨_, hu⟩ := outcomeOf_eq_returned.mp (hout.trans rfl)
    cases hu
  · obtain ⟨_, hu⟩ := outcomeOf_eq_returned.mp (hout.symm.trans rfl)
    cases hu
  · simp

theorem Client.Reachable.got? (h : c.Reachable) (ha : c.alive = true)
    (hm : c.got? m = some d) : d.Reachable ∧ d.alive = true := by
  have hstep : c.step (.message m.1 m.2) = d := by
    rw [Client.step_message, if_pos ha, Client.got?_eq_some.mp hm]
  rw [← hstep]
  exact ⟨h.step _, (c.step_alive (by simp)).trans ha⟩

/-- An accepted message that replies to something is one of the replies. -/
theorem replies_of_got? {k : RequestKind} {r : UInt64}
    (hreply : replyTo m.1 = some (k, r)) (hm : c.got? m = some d) :
    ∃ o, (Incoming.read m.1).Replies k r o ∧
      ∀ s, (∃ r', Incoming.read m.1 = .subscribed r' s ∨
        Incoming.read m.1 = .registered r' s) → grantedId m.1 = some s := by
  have hrun := Client.got?_eq_some.mp hm
  rcases read_repliesTo hreply with hr | ⟨text, rfl, hr⟩ | ⟨value, rfl, hr⟩ |
    ⟨s, rfl, hr, hs⟩ | ⟨rfl, hr⟩ | ⟨g, rfl, hr, hg⟩ <;> rw [hr] at hrun ⊢
  · cases hrun
  · exact ⟨_, .callError r text, by simp⟩
  · exact ⟨_, .result r value, by simp⟩
  · exact ⟨_, .subscribed r s, by simp [hs]⟩
  · exact ⟨_, .unsubscribed r, by simp⟩
  · exact ⟨_, .registered r g, by simp [hg]⟩

end

/-- **Independent replies may come in any order.** From a reachable state, a
list of pairwise independent replies that `got_message` accepts in one order
is accepted in every order, and every order leaves the same state. -/
theorem Client.Reachable.reordered {c d : Client} (h : c.Reachable)
    (ha : c.alive = true) {ms ms' : List Received} (hp : ms.Perm ms')
    (hreply : ∀ m ∈ ms, replyTo m.1 ≠ none)
    (hind : ms.Pairwise fun m m' => Independent m.1 m'.1)
    (hacc : Partial.accepts Client.got? c ms = some d) :
    Partial.accepts Client.got? c ms' = some d := by
  have hrel : ms.Pairwise fun m m' => Independent m.1 m'.1 ∧
      replyTo m.1 ≠ none ∧ replyTo m'.1 ≠ none :=
    hind.imp_of_mem fun hm hm' hi => ⟨hi, hreply _ hm, hreply _ hm'⟩
  refine Partial.accepts_perm (I := fun c => c.Reachable ∧ c.alive = true)
    ?_ ?_ ?_ hp hrel ⟨h, ha⟩ hacc
  · rintro c m d ⟨h, ha⟩ hm
    exact h.got? ha hm
  · rintro m m' ⟨hind, hm, hm'⟩
    exact ⟨hind.symm, hm', hm⟩
  · rintro c m m' d e ⟨h, ha⟩ ⟨hind, hm, hm'⟩ hfirst hsecond
    obtain ⟨⟨k, r⟩, hkey⟩ := Option.ne_none_iff_exists'.mp hm
    obtain ⟨⟨k', r'⟩, hkey'⟩ := Option.ne_none_iff_exists'.mp hm'
    obtain ⟨o, hi, hgrant⟩ := replies_of_got? hkey hfirst
    obtain ⟨o', hj, hgrant'⟩ := replies_of_got? hkey' hsecond
    have hne : ¬ (k = k' ∧ r = r') := by
      rintro ⟨rfl, rfl⟩
      exact hind.request (hkey.trans hkey'.symm)
    have hapart : (Incoming.read m.1).Apart (Incoming.read m'.1) := by
      constructor
      · intro q q' s hq hq'
        rw [hq] at hi
        rw [hq'] at hj
        cases hi
        cases hj
        apply hind.granted hkey hkey' (.inl rfl)
        rw [hgrant s ⟨_, .inl hq⟩, hgrant' s ⟨_, .inl hq'⟩]
      · intro q q' g hq hq'
        rw [hq] at hi
        rw [hq'] at hj
        cases hi
        cases hj
        apply hind.granted hkey hkey' (.inr rfl)
        rw [hgrant g ⟨_, .inr hq⟩, hgrant' g ⟨_, .inr hq'⟩]
    obtain ⟨hd, -⟩ := h.got? ha hfirst
    obtain ⟨d', hd', he⟩ := h.coherent.swap ha hd.coherent m.2 m'.2 hi hj hne
      hapart (Client.got?_eq_some.mp hfirst) (Client.got?_eq_some.mp hsecond)
      fun hrun => (h.got? ha (Client.got?_eq_some.mpr hrun)).1.coherent
    exact ⟨d', Client.got?_eq_some.mpr hd', Client.got?_eq_some.mpr he⟩

/-- A call and a subscribe wait; their answers come the other way round. -/
theorem reordered_call_subscribe :
    let c := (Client.new fun _ => .complete).runs
      [.message (MessageType.WELCOME.object [.positiveInteger 7]) fun _ => {},
        .operate (.call (octets "com.f") .none),
        .operate (.subscribe (octets "com.t") ⟨0⟩), .task 0, .task 0]
    let result : Received := (MessageType.RESULT.object
      [.positiveInteger 1, .map []], fun _ => {})
    let subscribed : Received := (MessageType.SUBSCRIBED.object
      [.positiveInteger 2, .positiveInteger 5], fun _ => {})
    ∃ d, Partial.accepts Client.got? c [result, subscribed] = some d ∧
      Partial.accepts Client.got? c [subscribed, result] = some d := by
  intro c result subscribed
  refine ⟨_, rfl, (Client.reachable_runs _ _).reordered rfl
    (.swap subscribed result []) ?_ ?_ rfl⟩
  · intro m hm
    rcases List.mem_pair.mp hm with rfl | rfl <;> decide
  · refine List.pairwise_pair.mpr ⟨by decide, ?_⟩
    intro k r r' h h'
    cases h
    cases h'

end Autobahn
