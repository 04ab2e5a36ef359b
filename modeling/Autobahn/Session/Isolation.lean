import Autobahn.Session.Framing

/-!
# Frames apart from each other

The unpacker belongs to the session, not to a frame, and nobody clears it. What
is read in a frame is what its payload spells only if nothing was left of the
frames before (`Receiver.isolated`); a payload that ends inside a value is
carried over into the next one (`not_isolated`).
-/

namespace Autobahn

open Foundation MsgPack

/-! ## What a frame is read as -/

/-- `got_message` threw while the frame was processed. -/
def ReadFrame.Broken (f : ReadFrame) : Prop :=
  ∃ a, f.outcome = .error (.session a)

/-- The frame was read as its payload alone spells it, up to where `got_message`
threw. -/
def ReadFrame.Plain (decode : Octets → Next Octets) (f : ReadFrame) : Prop :=
  ∃ os left, Reads decode f.payload os left ∧ f.objects <+: os ∧
    (f.Broken ∨ f.objects = os)

/-- Two frames passed on the same objects, except that the exception that broke
one of them off cut it short. -/
def ReadFrame.Agrees (f g : ReadFrame) : Prop :=
  f.objects = g.objects ∨ f.Broken ∧ f.objects <+: g.objects ∨
    g.Broken ∧ g.objects <+: f.objects

theorem ReadFrame.Plain.agrees {decode : Octets → Next Octets} {f g : ReadFrame}
    (hf : f.Plain decode) (hg : g.Plain decode) (h : f.payload = g.payload) :
    f.Agrees g := by
  obtain ⟨os, left, hread, hpre, hcut⟩ := hf
  obtain ⟨os', left', hread', hpre', hcut'⟩ := hg
  obtain ⟨rfl, -⟩ := hread.functional (h ▸ hread')
  rcases hcut with hb | rfl
  · rcases hcut' with hb' | rfl
    · rcases List.prefix_or_prefix_of_prefix hpre hpre' with hle | hle
      · exact .inr (.inl ⟨hb, hle⟩)
      · exact .inr (.inr ⟨hb', hle⟩)
    · exact .inr (.inl ⟨hb, hpre⟩)
  · rcases hcut' with hb' | heq
    · exact .inr (.inr ⟨hb', hpre'⟩)
    · exact .inl heq.symm

section

variable {σ : Type} {u : Unpacker σ} {pending : σ → Octets}
  {decode : Octets → Next Octets}

/-- The loop reads what is pending, until `got_message` throws; if it returns,
what is left is pending again. -/
theorem Connection.gotMessages_reads (hu : u.Streams pending decode)
    (users : Nat → UserCode) (k : Nat) (s : σ) (conn : Connection σ) :
    ∃ os left x conn', Reads decode (pending s) os left ∧
      (Connection.gotMessages u users k s).run conn = (x, conn') ∧
      conn'.reads = conn.reads ∧
      Connection.passed u users k s conn.client <+: os ∧
      ((∃ a, x = .error (.session a)) ∨
        Connection.passed u users k s conn.client = os) ∧
      (x = .ok () → left = some (pending conn'.unpacker)) := by
  induction hn : u.left s using Nat.strong_induction_on generalizing k s conn with
  | _ n ih =>
  have hdecode := hu.decodes s
  cases hnext : u.next s with
  | throws =>
      rw [hnext] at hdecode
      rw [Connection.gotMessages_throws hnext, Connection.passed_throws hnext]
      exact ⟨[], none, _, _, .throws hdecode, rfl, rfl, List.prefix_refl _,
        .inr rfl, by simp⟩
  | noMore t =>
      rw [hnext] at hdecode
      rw [Connection.gotMessages_noMore hnext, Connection.passed_noMore hnext]
      exact ⟨[], some (pending t), _, _, .noMore hdecode, rfl, rfl,
        List.prefix_refl _, .inr rfl, fun _ => rfl⟩
  | object obj t =>
      rw [hnext] at hdecode
      rw [Connection.gotMessages_object hnext, Connection.passed_object hnext]
      rcases hgot : (gotMessage (users k) obj).run conn.client with ⟨a | v, c⟩
      · -- the message is refused: nothing behind it is passed on
        obtain ⟨os, left, hread⟩ : ∃ os left, Reads decode (pending t) os left := by
          obtain ⟨os, left, -, -, hread, -⟩ :=
            ih (u.left t) (hn ▸ u.left_lt hnext) (k + 1) t conn rfl
          exact ⟨os, left, hread⟩
        refine ⟨obj :: os, left, .error (.session a),
          (conn.setUnpacker t).setClient c, .object hdecode hread, ?_, rfl, ?_,
          .inl ⟨a, rfl⟩, by simp⟩
        · simp [Exec.run_bind, Connection.setUnpacker, hgot, Except.mapError]
        · simp
      · obtain ⟨os, left, x, conn', hread, hrun, hreads, hpre, hcut, hleft⟩ :=
          ih (u.left t) (hn ▸ u.left_lt hnext) (k + 1) t
            ((conn.setUnpacker t).setClient c) rfl
        refine ⟨obj :: os, left, x, conn', .object hdecode hread, ?_, hreads, ?_,
          hcut.imp id (congrArg _), hleft⟩
        · rw [← hrun]
          simp [Exec.run_bind, Connection.setUnpacker, hgot, Except.mapError]
        · exact (List.prefix_cons_inj obj).mpr hpre

/-! ## What is left for the next frame -/

/-- At most one read is posted, and no octet is decoded. -/
structure Connection.Reposts (pending : σ → Octets) (conn conn' : Connection σ) :
    Prop where
  reads : conn'.reads = conn.reads ∨ ∃ read, conn'.reads = conn.reads ++ [read]
  pending : pending conn'.unpacker = pending conn.unpacker

theorem Connection.handshake_reposts (result : ReadResult) (conn : Connection σ) :
    conn.Reposts pending ((Connection.gotHandshakeReply result).run conn).2 := by
  rw [Connection.gotHandshakeReply, Exec.run_bind, run_onClient]
  rcases hr : (Autobahn.gotHandshakeReply (result.map fun data =>
    (data 0, data 1, data 2, data 3))).run conn.client with ⟨a | started, c⟩ <;>
    rw [hr]
  · exact ⟨.inl rfl, rfl⟩
  · cases started with
    | false => exact ⟨.inl rfl, rfl⟩
    | true => exact ⟨.inr ⟨_, rfl⟩, rfl⟩

theorem Connection.header_reposts (hu : u.Streams pending decode)
    (user : UserCode) (result : ReadResult) (conn : Connection σ) :
    conn.Reposts pending
      ((Connection.gotMessageHeader u user result).run conn).2 := by
  cases result with
  | error error => exact ⟨.inl rfl, rfl⟩
  | ok data =>
      cases hs : u.reserveBuffer conn.unpacker (Connection.ntohl data) with
      | none =>
          simp only [Connection.gotMessageHeader, Exec.run_bind, Exec.run_modify,
            Exec.run_get, hs]
          exact ⟨.inl rfl, rfl⟩
      | some s =>
          simp only [Connection.gotMessageHeader, Exec.run_bind, Exec.run_modify,
            Exec.run_get, hs]
          exact ⟨.inr ⟨_, rfl⟩, hu.reserved hs⟩

/-- A failed read posts nothing new but a header read, and decodes nothing. -/
theorem Connection.fail_reposts (hu : u.Streams pending decode)
    (users : Nat → UserCode) (error : ReadError) (read : Read)
    (conn : Connection σ) :
    conn.Reposts pending
      ((Connection.handler u (.error error) users read).run conn).2 := by
  cases read with
  | gotHandshakeReply => exact Connection.handshake_reposts _ conn
  | gotMessageHeader => exact Connection.header_reposts hu _ _ conn
  | gotMessageBody => exact ⟨.inl rfl, rfl⟩

/-- The body of a frame: its payload is put behind what is pending, and what is
left of both is pending afterwards. A handler that throws posts no read. -/
theorem Connection.body_reads (hu : u.Streams pending decode)
    (users : Nat → UserCode) (conn : Connection σ) {data : Octets}
    (hlength : data.length = conn.messageLength.toNat) :
    ∃ os left x conn',
      Reads decode (pending conn.unpacker ++ data) os left ∧
      (Connection.gotMessageBody u users (.ok fun i => data.getD i 0)).run conn =
        (x, conn') ∧
      Connection.passed u users 0 (u.bufferConsumed conn.unpacker data)
        conn.client <+: os ∧
      ((∃ a, x = .error (.session a)) ∨
        Connection.passed u users 0 (u.bufferConsumed conn.unpacker data)
          conn.client = os) ∧
      (conn'.reads = conn.reads ∨
        (∃ read, conn'.reads = conn.reads ++ [read]) ∧
          left = some (pending conn'.unpacker)) := by
  let s := u.bufferConsumed conn.unpacker data
  obtain ⟨os, left, x, conn', hread, hrun, hreads, hpre, hcut, hleft⟩ :=
    Connection.gotMessages_reads hu users 0 s (conn.setUnpacker s)
  have hs : u.bufferConsumed conn.unpacker (Connection.body conn.messageLength
      fun i => data.getD i 0) = s := by
    rw [Connection.body_getD hlength]
  have hbody : (Connection.gotMessageBody u users
      (.ok fun i => data.getD i 0)).run conn =
      (Connection.gotMessages u users 0 s >>= fun _ => do
        if ¬ (← get).client.session.stopped then
          receiveMessage).run (conn.setUnpacker s) := by
    rw [Connection.gotMessageBody, Exec.run_bind, Exec.run_get]
    dsimp only
    rw [hs]
    rfl
  rw [hu.consumed] at hread
  cases x with
  | error e =>
      rw [Exec.run_bind_error hrun] at hbody
      exact ⟨os, left, _, _, hread, hbody, hpre, hcut, .inl hreads⟩
  | ok v =>
      rw [Exec.run_bind_ok hrun, Exec.run_bind, Exec.run_get] at hbody
      dsimp only at hbody
      rw [Exec.run_ite] at hbody
      have hreturned : (∃ a, (Except.ok () : Except Failure Unit) =
          .error (.session a)) ∨ Connection.passed u users 0 s conn.client = os :=
        hcut
      cases hc : conn'.client.session.stopped with
      | true =>
          rw [if_neg (by simp [hc])] at hbody
          exact ⟨os, left, _, _, hread, hbody, hpre, hreturned, .inl hreads⟩
      | false =>
          rw [if_pos (by simp [hc])] at hbody
          refine ⟨os, left, _, _, hread, hbody, hpre, hreturned,
            .inr ⟨⟨.gotMessageHeader, ?_⟩, hleft rfl⟩⟩
          exact congrArg (· ++ [Read.gotMessageHeader]) hreads

/-! ## Over a run -/

/-- Every frame behind whole payloads is read plainly, and as long as every
payload is whole nothing is left pending between two frames. -/
structure Receiver.Tidy (pending : σ → Octets) (decode : Octets → Next Octets)
    (r : Receiver σ) : Prop where
  frames : EachEntry (fun pre f =>
    (∀ g ∈ pre, WholeValues decode g.payload) → f.Plain decode) r.frames
  reader : r.conn.reads = [] ∨ (∃ read, r.conn.reads = [read]) ∧
    ((∀ f ∈ r.frames, WholeValues decode f.payload) →
      pending r.conn.unpacker = [])

/-- A handler that reads no body keeps everything tidy. -/
theorem Receiver.Tidy.repost {r : Receiver σ} (h : r.Tidy pending decode)
    {read : Read} (hreads : r.conn.reads = [read]) {conn : Connection σ}
    (hconn : Connection.Reposts pending { r.conn with reads := [] } conn)
    (segments : List Octets) :
    Receiver.Tidy pending decode { r with conn, segments } := by
  refine ⟨h.frames, ?_⟩
  rcases h.reader with hnone | ⟨-, hclean⟩
  · rw [hnone] at hreads
    cases hreads
  · rcases hconn.reads with hr | ⟨read', hr⟩
    · exact .inl hr
    · exact .inr ⟨⟨read', hr⟩, fun hwhole => hconn.pending.trans (hclean hwhole)⟩

theorem Receiver.Tidy.body (hu : u.Streams pending decode) {r : Receiver σ}
    (h : r.Tidy pending decode) (hreads : r.conn.reads = [.gotMessageBody])
    {data : Octets} (hlength : data.length = r.conn.asks .gotMessageBody)
    (users : Nat → UserCode) (segments : List Octets) :
    Receiver.Tidy pending decode
      { conn := ((Connection.handler u (.ok fun i => data.getD i 0) users
          .gotMessageBody).run { r.conn with reads := [] }).2
        segments
        frames := r.frames ++ r.conn.receives u users data .gotMessageBody } := by
  obtain ⟨os, left, x, conn', hread, hrun, hpre, hcut, hposts⟩ :=
    Connection.body_reads hu users { r.conn with reads := [] } hlength
  have hclean : (∀ f ∈ r.frames, WholeValues decode f.payload) →
      pending r.conn.unpacker = [] := by
    rcases h.reader with hnone | ⟨-, hclean⟩
    · rw [hnone] at hreads
      cases hreads
    · exact hclean
  have herase : ({ r.conn with reads := r.conn.reads.eraseIdx 0 } :
      Connection σ) = { r.conn with reads := [] } := by
    rw [hreads]
    rfl
  have hplain : ∀ f ∈ r.conn.receives u users data .gotMessageBody,
      (∀ g ∈ r.frames, WholeValues decode g.payload) → f.Plain decode := by
    intro f hf hwhole
    obtain rfl := List.mem_singleton.mp hf
    -- nothing is pending, so what is decoded is the payload
    rw [show pending ({ r.conn with reads := [] } : Connection σ).unpacker = []
      from hclean hwhole, List.nil_append] at hread
    refine ⟨os, left, hread, hpre, hcut.imp_left ?_⟩
    rintro ⟨a, rfl⟩
    refine ⟨a, ?_⟩
    rw [herase, hrun]
  refine ⟨eachEntry_snoc.mpr ⟨h.frames, hplain _ List.mem_cons_self⟩, ?_⟩
  rw [show (Connection.handler u (.ok fun i => data.getD i 0) users
    .gotMessageBody).run { r.conn with reads := [] } = (x, conn') from hrun]
  rcases hposts with hr | ⟨⟨read, hr⟩, hleft⟩
  · exact .inl hr
  · refine .inr ⟨⟨read, hr⟩, fun hwhole => ?_⟩
    have hearlier := fun f hf => hwhole f (List.mem_append_left _ hf)
    obtain ⟨os', hos'⟩ := hwhole _ (List.mem_append_right _ List.mem_cons_self)
    rw [show pending ({ r.conn with reads := [] } : Connection σ).unpacker = []
      from hclean hearlier, List.nil_append] at hread
    obtain ⟨-, heq⟩ := hread.functional hos'
    rw [hleft] at heq
    exact Option.some.inj heq

theorem Receiver.Tidy.step (hu : u.Streams pending decode) {r : Receiver σ}
    (h : r.Tidy pending decode) (e : Event) : (r.step u e).Tidy pending decode := by
  cases e with
  | client i =>
      obtain ⟨c, hc⟩ := r.conn.step_client (u := u) i
      have hstep : r.step u (.client i) = { r with conn := r.conn.setClient c } := by
        simp only [Receiver.step, hc]
      rw [hstep]
      exact ⟨h.frames, h.reader⟩
  | fail error users =>
      rcases h.reader with hnone | ⟨⟨read, hreads⟩, -⟩
      · simpa [Receiver.step, Connection.step, hnone] using h
      · have hconn := Connection.fail_reposts hu users error read
          { r.conn with reads := [] }
        have := h.repost hreads hconn r.segments
        simpa [Receiver.step, Connection.step, hreads] using this
  | read users =>
      rcases h.reader with hnone | ⟨⟨read, hreads⟩, -⟩
      · simpa [Receiver.step, hnone] using h
      cases hdata : readExactly (r.conn.asks read) r.segments with
      | none => simpa [Receiver.step, hreads, hdata] using h
      | some p =>
          obtain ⟨data, rest⟩ := p
          have hlength := readExactly_length hdata
          have hstep : r.step u (.read users) =
              { conn := ((Connection.handler u (.ok fun i => data.getD i 0) users
                  read).run { r.conn with reads := [] }).2
                segments := rest
                frames := r.frames ++ r.conn.receives u users data read } := by
            simp [Receiver.step, hreads, hdata, Connection.step]
          rw [hstep]
          cases read with
          | gotHandshakeReply =>
              simpa [Connection.receives, Connection.handler] using h.repost hreads
                (Connection.handshake_reposts _ { r.conn with reads := [] }) rest
          | gotMessageHeader =>
              simpa [Connection.receives, Connection.handler] using h.repost hreads
                (Connection.header_reposts hu _ _ { r.conn with reads := [] }) rest
          | gotMessageBody => exact h.body hu hreads hlength users rest

/-- Nothing has been read, or is half-read. -/
structure Receiver.Fresh (pending : σ → Octets) (r : Receiver σ) : Prop where
  frames : r.frames = []
  reads : r.conn.reads = [] ∨ ∃ read, r.conn.reads = [read]
  empty : pending r.conn.unpacker = []

theorem Receiver.Fresh.tidy {r : Receiver σ} (h : r.Fresh pending) :
    r.Tidy pending decode := by
  refine ⟨?_, h.reads.imp_right fun hr => ⟨hr, fun _ => h.empty⟩⟩
  rw [h.frames]
  exact eachEntry_nil

theorem Receiver.Tidy.run (hu : u.Streams pending decode) {r : Receiver σ}
    (h : r.Tidy pending decode) (es : List Event) :
    (r.runs u es).Tidy pending decode := by
  induction es using List.reverseRecOn with
  | nil => exact h
  | append_singleton es e ih =>
      rw [Receiver.runs, Machine.run_snoc]
      exact ih.step hu e

/-- Frames with the same payload are read alike, in whatever runs and after
whatever frames they come. -/
def FramesIsolated (u : Unpacker σ) (pending : σ → Octets) : Prop :=
  ∀ (r r' : Receiver σ), r.Fresh pending → r'.Fresh pending →
    ∀ es es' : List Event, ∀ f ∈ (r.runs u es).frames,
      ∀ f' ∈ (r'.runs u es').frames, f.payload = f'.payload → f.Agrees f'

/-- **Frames are isolated behind whole payloads.** Two frames with the same
payload are read alike, in any two runs, if every payload received before them
is made of whole values. -/
theorem Receiver.isolated (hu : u.Streams pending decode) {r r' : Receiver σ}
    (hr : r.Fresh pending) (hr' : r'.Fresh pending) {es es' : List Event}
    {pre post pre' post' : List ReadFrame} {f f' : ReadFrame}
    (hf : (r.runs u es).frames = pre ++ f :: post)
    (hf' : (r'.runs u es').frames = pre' ++ f' :: post')
    (hwhole : ∀ g ∈ pre, WholeValues decode g.payload)
    (hwhole' : ∀ g ∈ pre', WholeValues decode g.payload)
    (hpayload : f.payload = f'.payload) : f.Agrees f' := by
  have hplain : f.Plain decode :=
    (hr.tidy.run hu es).frames pre f (by simp [hf]) hwhole
  have hplain' : f'.Plain decode :=
    (hr'.tidy.run hu es').frames pre' f' (by simp [hf']) hwhole'
  exact hplain.agrees hplain' hpayload

end

/-- The second message of `fedReceiver` alone, in one segment. -/
def fedSecond : Receiver Octets where
  conn :=
    { client := Client.new fun _ => .complete
      unpacker := []
      reads := [.gotMessageHeader] }
  segments := [[0, 0, 0, 3, 0x92, 2, 9]]

theorem fedReceiver_frames : ∃ f g,
    (fedReceiver.runs octetUnpacker
      [.read idle, .read idle, .read idle, .read idle]).frames = [f, g] ∧
    f.payload = [0x91, 7] ∧ g.payload = [0x92, 2, 9] := by
  have h : fedReceiver.BeforeHeader id octetWire twoMessages := ⟨rfl, rfl, rfl⟩
  obtain ⟨hframes, -⟩ := ((h.stage rfl).run octetUnpacker_streams
    twoMessages_isValue twoMessages_size _ fedReceiver_smooth).complete (by decide)
  obtain ⟨f, fs, hf, hpair, hrest⟩ := List.map_eq_cons_iff.mp hframes
  obtain ⟨g, gs, rfl, hpair', hnone⟩ := List.map_eq_cons_iff.mp hrest
  obtain rfl := List.map_eq_nil_iff.mp hnone
  exact ⟨f, g, hf, congrArg Prod.fst hpair, congrArg Prod.fst hpair'⟩

theorem fedSecond_frames : ∃ g,
    (fedSecond.runs octetUnpacker [.read idle, .read idle]).frames = [g] ∧
    g.payload = [0x92, 2, 9] :=
  ⟨_, rfl, rfl⟩

/-- A frame of one small list holds one value. -/
theorem heartbeat_whole : WholeValues octetDecode [0x91, 7] :=
  ⟨[.array [.positiveInteger 7]], .object rfl (.noMore rfl)⟩

theorem isolated_second : ∃ f g f',
    (fedReceiver.runs octetUnpacker
      [.read idle, .read idle, .read idle, .read idle]).frames = [f, g] ∧
    (fedSecond.runs octetUnpacker [.read idle, .read idle]).frames = [f'] ∧
    g.Agrees f' := by
  obtain ⟨f, g, hframes, hf, hg⟩ := fedReceiver_frames
  obtain ⟨f', hframes', hf'⟩ := fedSecond_frames
  have hnew : fedReceiver.Fresh id := ⟨rfl, .inr ⟨_, rfl⟩, rfl⟩
  have hnew' : fedSecond.Fresh id := ⟨rfl, .inr ⟨_, rfl⟩, rfl⟩
  have hsplit : (fedReceiver.runs octetUnpacker
      [.read idle, .read idle, .read idle, .read idle]).frames = [f] ++ g :: [] :=
    hframes
  have hsplit' : (fedSecond.runs octetUnpacker [.read idle, .read idle]).frames =
      [] ++ f' :: [] := hframes'
  have hwhole : ∀ e ∈ [f], WholeValues octetDecode e.payload := by
    intro e he
    obtain rfl := List.mem_singleton.mp he
    rw [hf]
    exact heartbeat_whole
  have hagrees : g.Agrees f' :=
    Receiver.isolated octetUnpacker_streams hnew hnew' hsplit hsplit' hwhole
      (fun e he => by cases he) (hg.trans hf'.symm)
  exact ⟨f, g, f', hframes, hframes', hagrees⟩

/-! ## A payload that ends inside a value -/

/-- After the handshake, a payload that announces a list of two and holds one,
and a payload that is a message. -/
def truncatedFirst : Receiver Octets where
  conn := Connection.start octetUnpacker fun _ => .complete
  segments :=
    [[0x7F, 0xF2, 0, 0], [0, 0, 0, 2, 0x92, 7], [0, 0, 0, 2, 0x91, 7]]

/-- The message alone. -/
def onlySecond : Receiver Octets where
  conn := Connection.start octetUnpacker fun _ => .complete
  segments := [[0x7F, 0xF2, 0, 0], [0, 0, 0, 2, 0x91, 7]]

/-- The client of an accepted handshake. -/
def startedClient : Client :=
  ((gotHandshakeReply (.ok (0x7F, 0xF2, 0, 0))).run
    (Client.new fun _ => .complete)).2

theorem onlySecond_frames :
    ∃ f ∈ (onlySecond.runs octetUnpacker
        [.read idle, .read idle, .read idle]).frames,
      f.payload = [0x91, 7] ∧ f.objects = [.array [.positiveInteger 7]] := by
  have hpassed := (Connection.passed_single octetUnpacker_streams (s := [0x91, 7])
    (o := .array [.positiveInteger 7]) rfl idle startedClient).1
  exact ⟨_, List.mem_cons_self, rfl, hpassed⟩

/-- The body of the first frame is awaited. -/
def truncatedHeader : Connection Octets where
  client := startedClient
  unpacker := []
  messageLength := 2
  reads := []

theorem truncatedFirst_frames :
    ∃ f ∈ (truncatedFirst.runs octetUnpacker
        [.read idle, .read idle, .read idle, .read idle, .read idle]).frames,
      f.payload = [0x91, 7] ∧ f.objects =
        [.array [.positiveInteger 7, .array [.positiveInteger 7]]] := by
  have hheader : truncatedFirst.runs octetUnpacker [.read idle, .read idle] =
      { conn := truncatedHeader.post .gotMessageBody
        segments := [[0x92, 7], [0, 0, 0, 2, 0x91, 7]] } := rfl
  -- the loop finds no value in the first payload and keeps it
  have hnone : Connection.passed octetUnpacker idle 0 [0x92, 7] startedClient = [] :=
    Connection.passed_noMore (t := [0x92, 7]) rfl
  have hrun : (Connection.gotMessageBody octetUnpacker idle
      (.ok fun i => [0x92, 7].getD i 0)).run truncatedHeader =
      (.ok (), (truncatedHeader.setUnpacker [0x92, 7]).post .gotMessageHeader) :=
    Connection.run_gotMessageBody_noMore octetUnpacker idle truncatedHeader rfl
  have hbody : truncatedFirst.runs octetUnpacker
      [.read idle, .read idle, .read idle] =
      { conn := (truncatedHeader.setUnpacker [0x92, 7]).post .gotMessageHeader
        segments := [[], [0, 0, 0, 2, 0x91, 7]]
        frames := [⟨[0x92, 7], [], .ok ()⟩] } := by
    show Receiver.step octetUnpacker (truncatedFirst.runs octetUnpacker
      [.read idle, .read idle]) (.read idle) = _
    rw [hheader]
    show Receiver.mk
      ((Connection.gotMessageBody octetUnpacker idle
        (.ok fun i => [0x92, 7].getD i 0)).run truncatedHeader).2
      [[], [0, 0, 0, 2, 0x91, 7]]
      [⟨[0x92, 7], Connection.passed octetUnpacker idle 0 [0x92, 7] startedClient,
        ((Connection.gotMessageBody octetUnpacker idle
          (.ok fun i => [0x92, 7].getD i 0)).run truncatedHeader).1⟩] = _
    rw [hrun, hnone]
  have hlast : truncatedFirst.runs octetUnpacker
      [.read idle, .read idle, .read idle, .read idle] =
      { conn := (truncatedHeader.setUnpacker [0x92, 7]).post .gotMessageBody
        segments := [[0x91, 7]]
        frames := [⟨[0x92, 7], [], .ok ()⟩] } := by
    show Receiver.step octetUnpacker (truncatedFirst.runs octetUnpacker
      [.read idle, .read idle, .read idle]) (.read idle) = _
    rw [hbody]
    rfl
  -- so the second one completes its list
  have hpassed := (Connection.passed_single octetUnpacker_streams
    (s := [0x92, 7, 0x91, 7])
    (o := .array [.positiveInteger 7, .array [.positiveInteger 7]]) rfl idle
    startedClient).1
  show ∃ f ∈ (Receiver.step octetUnpacker (truncatedFirst.runs octetUnpacker
    [.read idle, .read idle, .read idle, .read idle]) (.read idle)).frames, _
  rw [hlast]
  exact ⟨_, List.mem_cons_of_mem _ List.mem_cons_self, rfl, hpassed⟩

/-- A list of two cut short is completed by the message behind it. -/
theorem not_isolated : ¬ FramesIsolated octetUnpacker id := by
  intro h
  obtain ⟨f, hf, hpayload, hobjects⟩ := truncatedFirst_frames
  obtain ⟨f', hf', hpayload', hobjects'⟩ := onlySecond_frames
  have hagrees : f.Agrees f' := h _ _ ⟨rfl, .inr ⟨_, rfl⟩, rfl⟩
    ⟨rfl, .inr ⟨_, rfl⟩, rfl⟩ _ _ f hf f' hf' (hpayload.trans hpayload'.symm)
  rw [ReadFrame.Agrees, hobjects, hobjects'] at hagrees
  rcases hagrees with heq | ⟨-, hpre⟩ | ⟨-, hpre⟩
  · simp at heq
  · simp [List.cons_prefix_cons] at hpre
  · simp [List.cons_prefix_cons] at hpre

end Autobahn
