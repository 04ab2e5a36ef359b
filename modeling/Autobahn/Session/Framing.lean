import Autobahn.Session.Intake
import Autobahn.Session.Wire

/-!
# The framing round trip

What `send` writes, the receive loop of another session reads: every message
once, in order, and nothing is left over. `Stage` says how far the reader has
come, in reads: every frame takes two, one for its prefix and one for its body,
and whatever else the client does in between does not count.
-/

namespace Autobahn

open Foundation MsgPack

section

variable {σ : Type} {u : Unpacker σ} {pending : σ → Octets}
  {decode : Octets → Next Octets} {wire : Frame → Octets}

/-! ## One read -/

theorem Receiver.step_read {r : Receiver σ} {read : Read} {data rest : Octets}
    (hreads : r.conn.reads = [read])
    (hlength : r.conn.asks read = data.length)
    (hstream : r.segments.flatten = data ++ rest) (users : Nat → UserCode) :
    ∃ left, left.flatten = rest ∧ r.step u (.read users) =
      { conn := ((Connection.handler u (.ok fun i => data.getD i 0) users read).run
          { r.conn with reads := [] }).2
        segments := left
        frames := r.frames ++ r.conn.receives u users data read } := by
  obtain ⟨left, hread, hleft⟩ := readExactly_append hstream
  refine ⟨left, hleft, ?_⟩
  simp only [Receiver.step, hreads, hlength, hread, Connection.step,
    List.getElem?_cons_zero, List.eraseIdx_zero, List.tail_cons]

/-- A read waits while the stream is empty. -/
theorem Receiver.step_read_wait {r : Receiver σ} {read : Read}
    (hreads : r.conn.reads = [read]) (hasks : 0 < r.conn.asks read)
    (hstream : r.segments.flatten = []) (users : Nat → UserCode) :
    r.step u (.read users) = r := by
  have hread : readExactly (r.conn.asks read) r.segments = none := by
    apply readExactly_eq_none
    rw [hstream]
    exact hasks
  simp only [Receiver.step, hreads, hread]

theorem Connection.run_gotMessageHeader {conn : Connection σ} {s : σ}
    {data : Nat → UInt8}
    (h : u.reserveBuffer conn.unpacker (Connection.ntohl data) = some s)
    (users : Nat → UserCode) :
    ((Connection.handler u (.ok data) users .gotMessageHeader).run conn).2 =
      { conn with
        messageLength := Connection.ntohl data
        unpacker := s
        reads := conn.reads ++ [.gotMessageBody] } := by
  simp [Connection.handler, Connection.gotMessageHeader, Exec.run_bind, h,
    Connection.setUnpacker, asyncRead, Connection.post]

/-! ## The stages of a frame -/

/-- The octets of these messages, framed. -/
def framedAll (wire : Frame → Octets) (os : List Object) : Octets :=
  os.flatMap fun o => framed wire (pack o)

/-- Nothing is half-read, and the frames of `os` are to come. -/
structure Receiver.BeforeHeader (pending : σ → Octets) (wire : Frame → Octets)
    (r : Receiver σ) (os : List Object) : Prop where
  reads : r.conn.reads = [.gotMessageHeader]
  empty : pending r.conn.unpacker = []
  stream : r.segments.flatten = framedAll wire os

/-- The prefix of `o` is read, and its body is next. -/
structure Receiver.BeforeBody (pending : σ → Octets) (wire : Frame → Octets)
    (r : Receiver σ) (o : Object) (os : List Object) : Prop where
  reads : r.conn.reads = [.gotMessageBody]
  length : r.conn.messageLength = lengthPrefix wire (pack o)
  empty : pending r.conn.unpacker = []
  stream : r.segments.flatten = wire (pack o) ++ framedAll wire os

/-- No frame so far ended with an exception out of `got_message`. -/
def Receiver.Unbroken (r : Receiver σ) : Prop :=
  ∀ f ∈ r.frames, ∀ a, f.outcome ≠ .error (.session a)

/-- `got_message` returns normally and nobody stops the session; no read
fails. -/
def Receiver.Smooth (u : Unpacker σ) (r : Receiver σ) (e : Event) : Prop :=
  (∀ error users, e ≠ .fail error users) ∧
  (r.step u e).Unbroken ∧ (r.step u e).conn.client.session.stopped = false

theorem lengthPrefix_toNat {buffer : Frame}
    (h : (wire buffer).length ≤ maxLength) :
    (lengthPrefix wire buffer).toNat = (wire buffer).length := by
  exact lengthPrefix_toNat_iff.mpr (Nat.lt_of_le_of_lt h (by decide))

theorem Receiver.BeforeHeader.read (hu : u.Streams pending decode)
    {r : Receiver σ} {o : Object} {os : List Object}
    (h : r.BeforeHeader pending wire (o :: os))
    (hsize : (wire (pack o)).length ≤ maxLength) (users : Nat → UserCode) :
    (r.step u (.read users)).BeforeBody pending wire o os ∧
      (r.step u (.read users)).frames = r.frames ∧
      (r.step u (.read users)).conn.client = r.conn.client := by
  have hstream : r.segments.flatten = htonl (lengthPrefix wire (pack o)) ++
      (wire (pack o) ++ framedAll wire os) := by
    rw [h.stream, framedAll, List.flatMap_cons, framed, List.append_assoc]
    rfl
  have hlen := ntohl_htonl (lengthPrefix wire (pack o)) []
  rw [List.append_nil] at hlen
  obtain ⟨left, hleft, hstep⟩ :=
    Receiver.step_read (u := u) h.reads rfl hstream users
  cases hs : u.reserveBuffer r.conn.unpacker (lengthPrefix wire (pack o)) with
  | none =>
      refine absurd hs (hu.reserves _ _ ?_)
      rw [lengthPrefix_toNat hsize]
      exact hsize
  | some s =>
      rw [Connection.run_gotMessageHeader (s := s) (by rw [hlen]; exact hs),
        hlen] at hstep
      rw [hstep]
      refine ⟨⟨rfl, rfl, ?_, hleft⟩, List.append_nil _, rfl⟩
      exact (hu.reserved hs).trans h.empty

/-- One value in the buffer is passed on, and nothing behind it. -/
theorem Connection.passed_single (hu : u.Streams pending decode) {s : σ}
    {o : Object} (hs : decode (pending s) = .object o [])
    (users : Nat → UserCode) (c : Client) :
    Connection.passed u users 0 s c = [o] ∧
      ∃ t t', u.next s = .object o t ∧ u.next t = .noMore t' ∧
        pending t' = [] := by
  obtain ⟨t, hnext, ht⟩ := hu.next_object hs
  obtain ⟨t', hmore, ht'⟩ := hu.next_noMore (s := t) (by rw [ht]; exact hu.empty)
  refine ⟨?_, t, t', hnext, hmore, ht'.trans ht⟩
  rw [Connection.passed_object hnext]
  rcases (gotMessage (users 0) o).run c with ⟨_ | _, d⟩
  · rfl
  · exact congrArg _ (Connection.passed_noMore hmore)

/-- A body whose first message is not accepted. -/
theorem Connection.run_gotMessageBody_refused {users : Nat → UserCode}
    {conn : Connection σ} {data : Nat → UInt8} {t : σ} {obj : Object} {a : Abort}
    {c : Client}
    (hnext : u.next (u.bufferConsumed conn.unpacker
      (Connection.body conn.messageLength data)) = .object obj t)
    (hgot : (gotMessage (users 0) obj).run conn.client = (.error a, c)) :
    ((Connection.gotMessageBody u users (.ok data)).run conn).1 =
      .error (.session a) := by
  simp [Connection.gotMessageBody, Connection.gotMessages_object hnext,
    Exec.run_bind, Connection.setUnpacker, hgot, Except.mapError]

/-- The body of a message is read: the message, and nothing else, is passed on.
If it is accepted the reader is back before a header, unless the session has
been stopped. -/
theorem Receiver.BeforeBody.step_read (hu : u.Streams pending decode)
    {r : Receiver σ} {o : Object} {os : List Object}
    (h : r.BeforeBody pending wire o os)
    (hvalue : IsValue decode (wire (pack o)) o)
    (hsize : (wire (pack o)).length ≤ maxLength) (users : Nat → UserCode) :
    ∃ f, (r.step u (.read users)).frames = r.frames ++ [f] ∧
      f.payload = wire (pack o) ∧ f.objects = [o] ∧
      (∀ a c, (gotMessage (users 0) o).run r.conn.client = (.error a, c) →
        f.outcome = .error (.session a)) ∧
      ∀ c, (gotMessage (users 0) o).run r.conn.client = (.ok (), c) →
        f.outcome = .ok () ∧ (r.step u (.read users)).conn.client = c ∧
          (c.session.stopped = false →
            (r.step u (.read users)).BeforeHeader pending wire os) := by
  have hlength : r.conn.asks .gotMessageBody = (wire (pack o)).length := by
    rw [Connection.asks, h.length, lengthPrefix_toNat hsize]
  obtain ⟨left, hleft, hstep⟩ :=
    Receiver.step_read (u := u) h.reads hlength h.stream users
  have hpending : decode (pending (u.bufferConsumed r.conn.unpacker
      (wire (pack o)))) = .object o [] := by
    rw [hu.consumed, h.empty, List.nil_append]
    have := hvalue []
    rwa [List.append_nil] at this
  obtain ⟨hpassed, t, t', hnext, hmore, ht'⟩ :=
    Connection.passed_single hu hpending users r.conn.client
  have hbody : Connection.body r.conn.messageLength
      (fun i => (wire (pack o)).getD i 0) = wire (pack o) :=
    Connection.body_getD hlength.symm
  rw [← hbody] at hnext
  rw [hstep]
  have hreads : ({ r.conn with reads := r.conn.reads.eraseIdx 0 } :
      Connection σ) = { r.conn with reads := [] } := by
    rw [h.reads]
    rfl
  refine ⟨_, rfl, rfl, hpassed, fun a c hgot => ?_, fun c hgot => ?_⟩
  · rw [hreads]
    exact Connection.run_gotMessageBody_refused hnext hgot
  · have hrun := Connection.run_gotMessageBody_single u users
      { r.conn with reads := [] } hnext hmore hgot
    have hstate : (Connection.handler u (.ok fun i => (wire (pack o)).getD i 0)
        users .gotMessageBody).run { r.conn with reads := [] } =
        (.ok (), if c.session.stopped then
          { r.conn with client := c, unpacker := t', reads := [] }
          else { r.conn with
            client := c, unpacker := t', reads := [.gotMessageHeader] }) := hrun
    rw [hreads, hstate]
    refine ⟨congrArg Prod.fst hrun, ?_, fun hc => ⟨?_, ?_, hleft⟩⟩
    · cases c.session.stopped <;> rfl
    · simp [hc]
    · simp [hc, ht']

theorem Receiver.BeforeBody.read (hu : u.Streams pending decode)
    {r : Receiver σ} {o : Object} {os : List Object}
    (h : r.BeforeBody pending wire o os)
    (hvalue : IsValue decode (wire (pack o)) o)
    (hsize : (wire (pack o)).length ≤ maxLength) {users : Nat → UserCode}
    (hsmooth : r.Smooth u (.read users)) :
    (r.step u (.read users)).BeforeHeader pending wire os ∧
      ∃ f, (r.step u (.read users)).frames = r.frames ++ [f] ∧
        f.payload = wire (pack o) ∧ f.objects = [o] := by
  obtain ⟨f, hf, hpayload, hobjects, hrefused, haccepted⟩ :=
    h.step_read hu hvalue hsize users
  obtain ⟨-, hunbroken, hopen⟩ := hsmooth
  rcases hgot : (gotMessage (users 0) o).run r.conn.client with ⟨a | v, c⟩
  · refine absurd (hrefused a c hgot) (hunbroken f ?_ a)
    rw [hf]
    exact List.mem_append_right _ List.mem_cons_self
  · obtain ⟨-, hclient, hheader⟩ := haccepted c hgot
    exact ⟨hheader (hclient ▸ hopen), f, hf, hpayload, hobjects⟩

/-- A run is smooth as long as `got_message` returns and the session stays
open. -/
theorem Receiver.BeforeBody.smooth (hu : u.Streams pending decode)
    {r : Receiver σ} {o : Object} {os : List Object}
    (h : r.BeforeBody pending wire o os)
    (hvalue : IsValue decode (wire (pack o)) o)
    (hsize : (wire (pack o)).length ≤ maxLength) {users : Nat → UserCode}
    {c : Client} (hgot : (gotMessage (users 0) o).run r.conn.client = (.ok (), c))
    (hopen : c.session.stopped = false) (hr : r.Unbroken) :
    r.Smooth u (.read users) ∧ (r.step u (.read users)).conn.client = c := by
  obtain ⟨f, hf, -, -, -, haccepted⟩ := h.step_read hu hvalue hsize users
  obtain ⟨hok, hclient, -⟩ := haccepted c hgot
  refine ⟨⟨by simp, fun g hg a => ?_, by rw [hclient, hopen]⟩, hclient⟩
  rw [hf] at hg
  rcases List.mem_append.mp hg with hg | hg
  · exact hr g hg a
  · obtain rfl := List.mem_singleton.mp hg
    rw [hok]
    simp

theorem Receiver.BeforeHeader.smooth (hu : u.Streams pending decode)
    {r : Receiver σ} {o : Object} {os : List Object}
    (h : r.BeforeHeader pending wire (o :: os))
    (hsize : (wire (pack o)).length ≤ maxLength) (users : Nat → UserCode)
    (hopen : r.conn.client.session.stopped = false) (hr : r.Unbroken) :
    r.Smooth u (.read users) := by
  obtain ⟨-, hframes, hclient⟩ := h.read hu hsize users
  refine ⟨by simp, ?_, by rw [hclient, hopen]⟩
  rw [Receiver.Unbroken, hframes]
  exact hr

/-- Nothing but a completion handler touches the reader. -/
theorem Connection.step_client (conn : Connection σ) (i : Input) :
    ∃ c, conn.step u (.client i) = conn.setClient c := by
  simp only [Connection.step]
  split
  · exact ⟨_, rfl⟩
  · exact ⟨conn.client, rfl⟩

/-! ## A whole run -/

/-- Does this event complete a read? -/
def Event.isRead : Event → Bool
  | .read _ => true
  | _ => false

/-- After `k` reads: the messages in `done` have been passed on, one by one, and
the others are still to come. -/
def Receiver.Stage (pending : σ → Octets) (wire : Frame → Octets)
    (os : List Object) (k : Nat) (r : Receiver σ) : Prop :=
  ∃ done rest, os = done ++ rest ∧
    r.frames.map (fun f => (f.payload, f.objects)) =
      done.map (fun o => (wire (pack o), [o])) ∧
    ((r.BeforeHeader pending wire rest ∧
        (k = 2 * done.length ∨ rest = [] ∧ 2 * done.length ≤ k)) ∨
      ∃ o os', rest = o :: os' ∧ r.BeforeBody pending wire o os' ∧
        k = 2 * done.length + 1)

theorem Receiver.BeforeHeader.stage {r : Receiver σ} {os : List Object}
    (h : r.BeforeHeader pending wire os) (hnew : r.frames = []) :
    r.Stage pending wire os 0 :=
  ⟨[], os, rfl, by simp [hnew], .inl ⟨h, .inl rfl⟩⟩

theorem Receiver.Stage.step (hu : u.Streams pending decode) {os : List Object}
    (hvalue : ∀ o ∈ os, IsValue decode (wire (pack o)) o)
    (hsize : ∀ o ∈ os, (wire (pack o)).length ≤ maxLength) {k : Nat}
    {r : Receiver σ} (h : r.Stage pending wire os k) {e : Event}
    (hsmooth : r.Smooth u e) :
    (r.step u e).Stage pending wire os (k + if e.isRead then 1 else 0) := by
  obtain ⟨done, rest, rfl, hframes, hphase⟩ := h
  cases e with
  | fail error users => exact absurd rfl (hsmooth.1 error users)
  | client i =>
      obtain ⟨c, hc⟩ := r.conn.step_client (u := u) i
      have hstep : r.step u (.client i) = { r with conn := r.conn.setClient c } := by
        simp only [Receiver.step, hc]
      rw [hstep]
      refine ⟨done, rest, rfl, hframes, hphase.imp ?_ ?_⟩
      · rintro ⟨⟨hreads, hempty, hstream⟩, hk⟩
        exact ⟨⟨hreads, hempty, hstream⟩, hk⟩
      · rintro ⟨o, os', hrest, ⟨hreads, hlength, hempty, hstream⟩, hk⟩
        exact ⟨o, os', hrest, ⟨hreads, hlength, hempty, hstream⟩, hk⟩
  | read users =>
      simp only [Event.isRead, if_true]
      rcases hphase with ⟨hheader, hk⟩ | ⟨o, os', rfl, hbody, hk⟩
      · cases rest with
        | nil =>
            -- every message has arrived, and the read of a header waits
            have hwait : r.step u (.read users) = r :=
              Receiver.step_read_wait hheader.reads (by simp [Connection.asks])
                hheader.stream users
            rw [hwait]
            exact ⟨done, [], rfl, hframes, .inl ⟨hheader, .inr ⟨rfl, by omega⟩⟩⟩
        | cons o os' =>
            have ho : o ∈ done ++ o :: os' := by simp
            obtain ⟨hnext, hsame, -⟩ := hheader.read hu (hsize o ho) users
            refine ⟨done, o :: os', rfl, hsame ▸ hframes,
              .inr ⟨o, os', rfl, hnext, ?_⟩⟩
            rcases hk with hk | ⟨hk, -⟩
            · omega
            · cases hk
      · have ho : o ∈ done ++ o :: os' := by simp
        obtain ⟨hnext, f, hf, hpayload, hobjects⟩ :=
          hbody.read hu (hvalue o ho) (hsize o ho) hsmooth
        refine ⟨done ++ [o], os', by simp, ?_, .inl ⟨hnext, .inl ?_⟩⟩
        · rw [hf, List.map_append, List.map_append, hframes, List.map_singleton,
            List.map_singleton, hpayload, hobjects]
        · rw [List.length_append, List.length_singleton]
          omega

theorem Receiver.Stage.run (hu : u.Streams pending decode) {os : List Object}
    (hvalue : ∀ o ∈ os, IsValue decode (wire (pack o)) o)
    (hsize : ∀ o ∈ os, (wire (pack o)).length ≤ maxLength)
    {r : Receiver σ} (h : r.Stage pending wire os 0) (es : List Event)
    (hsmooth : Machine.EachStep (Receiver.step u) (Receiver.Smooth u) r es) :
    (r.runs u es).Stage pending wire os (es.countP Event.isRead) := by
  induction es using List.reverseRecOn with
  | nil => exact h
  | append_singleton es e ih =>
      have hpre := ih (hsmooth.of_isPrefix (List.prefix_append es [e]))
      have hstep := hpre.step hu hvalue hsize
        (hsmooth es e (List.prefix_refl _))
      rw [Receiver.runs, Machine.run_snoc, List.countP_append,
        List.countP_singleton]
      exact hstep

/-- After two reads for every message they have all been passed on. -/
theorem Receiver.Stage.complete {os : List Object} {k : Nat} {r : Receiver σ}
    (h : r.Stage pending wire os k) (hk : 2 * os.length ≤ k) :
    r.frames.map (fun f => (f.payload, f.objects)) =
      os.map (fun o => (wire (pack o), [o])) ∧
    r.BeforeHeader pending wire [] := by
  obtain ⟨done, rest, rfl, hframes, hphase⟩ := h
  rw [List.length_append] at hk
  rcases hphase with ⟨hheader, hreads⟩ | ⟨o, os', rfl, -, hreads⟩
  · have hrest : rest = [] := by
      rcases hreads with hreads | ⟨hrest, -⟩
      · exact List.length_eq_zero_iff.mp (by omega)
      · exact hrest
    subst hrest
    exact ⟨by rw [hframes, List.append_nil], hheader⟩
  · rw [List.length_cons] at hk
    omega

/-- After the events `es` the messages `os` have gone to `got_message`, each once and
in order, between what the program did itself, and nothing of the stream is left. -/
structure Receiver.HandsOver (u : Unpacker σ) (pending : σ → Octets) (r : Receiver σ)
    (os : List Object) (es : List Event) : Prop where
  client : (r.runs u es).conn.client = r.conn.client.runs (r.inputs u es)
  messages : (r.inputs u es).filterMap Input.object? = os
  own : (r.inputs u es).filter Input.isOwn = es.filterMap Event.own?
  alive : (r.runs u es).conn.client.alive = true
  /-- each from a frame of its own -/
  frames : (r.runs u es).frames.map ReadFrame.objects = os.map (fun o => [o])
  empty : pending (r.runs u es).conn.unpacker = []
  reads : (r.runs u es).conn.reads = [.gotMessageHeader]
  stream : (r.runs u es).segments.flatten = []

/-- **The framing round trip.** The messages written by `send` on an open session
are passed to `got_message` of the receiving one, each once and in order,
however the stream is segmented and whatever else the receiving client does,
and no octet is left over. -/
theorem Receiver.round_trip (hu : u.Streams pending decode)
    {os : List Object} (hvalue : ∀ o ∈ os, IsValue decode (wire (pack o)) o)
    (hsize : ∀ o ∈ os, (wire (pack o)).length ≤ maxLength)
    {sender : WampSession} (hopen : sender.stopped = false)
    (hplan : ∀ n, sender.out.plan n = .complete) {r : Receiver σ}
    (halive : r.conn.client.alive = true)
    (hreads : r.conn.reads = [.gotMessageHeader])
    (hempty : pending r.conn.unpacker = []) (hnew : r.frames = [])
    (hstream : (sender.sendAll (os.map pack)).out.octets wire =
      sender.out.octets wire ++ r.segments.flatten)
    {es : List Event}
    (hsmooth : Machine.EachStep (Receiver.step u) (Receiver.Smooth u) r es)
    (henough : 2 * os.length ≤ es.countP Event.isRead) :
    r.HandsOver u pending os es := by
  have hfed : r.segments.flatten = framedAll wire os := by
    rw [WampSession.octets_sendAll _ hopen hplan,
      List.append_cancel_left_eq] at hstream
    rw [← hstream, framedAll, List.flatMap_map]
  have hstart : r.Stage pending wire os 0 :=
    Receiver.BeforeHeader.stage ⟨hreads, hempty, hfed⟩ hnew
  obtain ⟨hframes, hheader⟩ :=
    (hstart.run hu hvalue hsize es hsmooth).complete henough
  have hobjects : (r.runs u es).frames.map ReadFrame.objects =
      os.map (fun o => [o]) := by
    simpa [Function.comp_def] using congrArg (List.map Prod.snd) hframes
  have howned : r.conn.Owned := fun _ => halive
  have htakes := Receiver.takes_runs (u := u) howned es
  have hmessages : (r.inputs u es).filterMap Input.object? = (r.runs u es).objects := by
    rw [htakes.objects, Receiver.objects, hnew]
    rfl
  refine ⟨htakes.client, ?_, htakes.own, ?_, hobjects, hheader.empty, hheader.reads,
    hheader.stream⟩
  · rw [hmessages, Receiver.objects_eq hobjects]
  · exact Receiver.owned_runs howned es (by simp [hheader.reads])

/-! ## Smooth runs -/

/-- `got_message` accepts these messages one after another, and none of them
stops the session. -/
def Client.TakesAll (users : Nat → UserCode) : Client → List Object → Prop
  | _, [] => True
  | c, o :: os => ∃ d, (gotMessage (users 0) o).run c = (.ok (), d) ∧
      d.session.stopped = false ∧ d.TakesAll users os

/-- Reading what the client takes is a smooth run. -/
theorem Receiver.BeforeHeader.smooth_run (hu : u.Streams pending decode)
    {users : Nat → UserCode} {os : List Object} : ∀ {r : Receiver σ},
    r.BeforeHeader pending wire os →
    (∀ o ∈ os, IsValue decode (wire (pack o)) o) →
    (∀ o ∈ os, (wire (pack o)).length ≤ maxLength) →
    r.conn.client.session.stopped = false → r.Unbroken →
    r.conn.client.TakesAll users os →
    Machine.EachStep (Receiver.step u) (Receiver.Smooth u) r
      (os.flatMap fun _ => [.read users, .read users]) := by
  induction os with
  | nil => exact fun _ _ _ _ _ _ => Machine.eachStep_nil
  | cons o os ih =>
      intro r h hvalue hsize hopen hr htakes
      obtain ⟨d, hgot, hd, htakes⟩ := htakes
      rw [List.forall_mem_cons] at hvalue hsize
      have hheader := h.smooth hu hsize.1 users hopen hr
      obtain ⟨hbody, -, hclient⟩ := h.read hu hsize.1 users
      rw [← hclient] at hgot
      obtain ⟨hsmooth, hclient'⟩ :=
        hbody.smooth hu hvalue.1 hsize.1 hgot hd hheader.2.1
      obtain ⟨hnext, -⟩ := hbody.read hu hvalue.1 hsize.1 hsmooth
      rw [← hclient'] at hd htakes
      rw [List.flatMap_cons, List.cons_append, Machine.eachStep_cons,
        List.singleton_append, Machine.eachStep_cons]
      exact ⟨hheader, hsmooth,
        ih hnext hvalue.2 hsize.2 hd hsmooth.2.1 htakes⟩

end

/-! ## A run -/

/-- A HEARTBEAT and a WELCOME. -/
def twoMessages : List Object :=
  [.array [.positiveInteger 7], .array [.positiveInteger 2, .positiveInteger 9]]

/-- They arrive in four segments, none of them a frame. -/
def fedReceiver : Receiver Octets where
  conn :=
    { client := Client.new fun _ => .complete
      unpacker := []
      reads := [.gotMessageHeader] }
  segments := [[0, 0], [0, 2, 0x91], [], [7, 0, 0, 0, 3, 0x92, 2, 9]]

theorem twoMessages_isValue : ∀ o ∈ twoMessages,
    IsValue octetDecode (octetWire (pack o)) o := by
  simp only [twoMessages, List.forall_mem_cons, List.not_mem_nil, false_implies,
    implies_true, and_true]
  exact ⟨octetDecode_isValue (s := [0x91, 7]) rfl,
    octetDecode_isValue (s := [0x92, 2, 9]) rfl⟩

theorem twoMessages_size :
    ∀ o ∈ twoMessages, (octetWire (pack o)).length ≤ maxLength := by
  decide

/-- The user of this receiver does nothing. -/
def idle : Nat → UserCode := fun _ _ => {}

theorem fedReceiver_smooth :
    Machine.EachStep (Receiver.step octetUnpacker) (Receiver.Smooth octetUnpacker)
      fedReceiver [.read idle, .read idle, .read idle, .read idle] := by
  have h : fedReceiver.BeforeHeader id octetWire twoMessages := ⟨rfl, rfl, rfl⟩
  refine h.smooth_run octetUnpacker_streams twoMessages_isValue
    twoMessages_size rfl (fun f hf => by cases hf) ?_
  exact ⟨_, rfl, rfl, _, rfl, rfl, trivial⟩

theorem round_trip_two :
    let es := [.read idle, .read idle, .read idle, .read idle]
    fedReceiver.HandsOver octetUnpacker id twoMessages es ∧
      (fedReceiver.runs octetUnpacker es).conn.client.session.sessionId = 9 :=
  have hopen : ({ out := { plan := fun _ => .complete } } :
    WampSession).stopped = false := rfl
  ⟨Receiver.round_trip octetUnpacker_streams twoMessages_isValue twoMessages_size
    hopen (fun _ => rfl) rfl rfl rfl rfl rfl fedReceiver_smooth (by decide),
    by decide +kernel⟩

end Autobahn
