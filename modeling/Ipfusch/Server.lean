import Ipfusch.DataLoop

/-!
# The stream handlers of the server

`handleTcpConnection` and `handleQuicStream` : the handshake, in which the server reads
two control frames and answers with an `Ack`, and the data loop. Each is `handleStream`
with its own error contexts, and the QUIC handler closes its sending side at the end.

`Opens` says which two messages open a session. `streamHandlers_gated` is the gate : on
any bytes, a handler writes nothing, or a refusing `Ack`, or an accepting `Ack` and the
headers of the packets that follow, and the last exactly if the first two frames open a
session.
-/

namespace Ipfusch

open ByteConn

/-- The error contexts of `handle_tcp_connection`. -/
def tcpTexts : HandlerTexts where
  readHello := "read hello"
  readStart := "read start session"
  sendAck := "send ack"
  readPayload := "read tcp payload"
  writeEcho := "write tcp echo header"

/-- The error contexts of `handle_quic_stream`. -/
def quicTexts : HandlerTexts where
  readHello := "read quic hello"
  readStart := "read quic start"
  sendAck := "send quic ack"
  readPayload := "read quic payload"
  writeEcho := "write quic header echo"

section Handlers

variable (sha256 : List UInt8 → Digest)

/-- The session id, the decision and its reason. -/
def sessionOutcome (token : Option String) : ControlMessage → ControlMessage →
    UInt64 × Bool × Option String
  | .hello version _ tokenHash _, .startSession sessionId .. =>
    if version ≠ protocolVersion then
      (sessionId, false, some s!"protocol version mismatch: {version}")
    else if ¬tokenMatches sha256 token tokenHash then
      (sessionId, false, some "token rejected")
    else (sessionId, true, none)
  | _, _ => (0, false, some "invalid control flow")

/-- A handler up to its data loop. -/
def serverHandshake (t : HandlerTexts) (token : Option String) : Net Unit := do
  let hello ← context t.readHello readControlFrameAsync
  let start ← context t.readStart readControlFrameAsync
  let (sessionId, accepted, reason) := sessionOutcome sha256 token hello start
  context t.sendAck (writeControlFrameAsync (.ack sessionId accepted reason))
  if ¬accepted then fail (.error (.msg (reason.getD "session rejected"))) else pure ()

/-- The data loop with an empty payload buffer. -/
def serveData (t : HandlerTexts) : Net Unit where
  run := dataLoop t []

/-- What the handlers have in common. -/
def handleStream (t : HandlerTexts) (token : Option String) : Net Unit := do
  serverHandshake sha256 t token
  serveData t

/-- `handle_tcp_connection` -/
def handleTcpConnection (token : Option String) : Net Unit :=
  handleStream sha256 tcpTexts token

/-- `handle_quic_stream`. It reads a payload with quinn's own `read_exact`, whose error at an early
end of the stream is `FinishedEarly`. Here it is an I/O error, as that of the TCP handler. -/
def handleQuicStream (token : Option String) : Net Unit := do
  handleStream sha256 quicTexts token
  context "finish quic stream" finish

/-! ## The decision -/

/-- The messages that open a session : a `Hello` of this protocol version, whose token
hash is that of the server's token if it has one, and a `StartSession`. -/
def Opens (token : Option String) (hello start : ControlMessage) : Prop :=
  (∃ clientName tokenHash capabilities,
    hello = .hello protocolVersion clientName tokenHash capabilities ∧
      ∀ t, token = some t → tokenHash = some (hashToken sha256 t)) ∧
  ∃ sessionId transport streams durationMs payloadBytes intervalMs rateBps,
    start = .startSession sessionId transport streams durationMs payloadBytes intervalMs rateBps

/-- The session id of a `StartSession` that follows a `Hello`. -/
def sessionIdOf : ControlMessage → ControlMessage → UInt64
  | .hello .., .startSession sessionId .. => sessionId
  | _, _ => 0

theorem tokenMatches_iff {token : Option String} {tokenHash : Option Digest} :
    tokenMatches sha256 token tokenHash = true ↔
      ∀ t, token = some t → tokenHash = some (hashToken sha256 t) := by
  cases token with
  | none => simp
  | some t => simp [tokenMatches_some]

/-- The `Ack` names the session. -/
theorem sessionOutcome_sessionId (token : Option String) (hello start : ControlMessage) :
    (sessionOutcome sha256 token hello start).1 = sessionIdOf hello start := by
  unfold sessionOutcome sessionIdOf
  split
  · split_ifs <;> rfl
  · rfl

/-- The decision : accept without a reason, or refuse. -/
theorem sessionOutcome_accepted (token : Option String) (hello start : ControlMessage) :
    (Opens sha256 token hello start ∧
      (sessionOutcome sha256 token hello start).2 = (true, none)) ∨
    (¬Opens sha256 token hello start ∧
      (sessionOutcome sha256 token hello start).2.1 = false) := by
  unfold sessionOutcome
  split
  · rename_i version clientName tokenHash capabilities _ _ _ _ _ _ _
    by_cases hv : version = protocolVersion
    · rw [if_neg (not_not.mpr hv)]
      by_cases ht : tokenMatches sha256 token tokenHash = true
      · rw [if_neg (not_not.mpr ht)]
        subst hv
        exact Or.inl ⟨⟨⟨_, _, _, rfl, (tokenMatches_iff sha256).mp ht⟩,
          _, _, _, _, _, _, _, rfl⟩, rfl⟩
      · rw [if_pos ht]
        refine Or.inr ⟨?_, rfl⟩
        rintro ⟨⟨_, _, _, h, htok⟩, -⟩
        obtain ⟨-, -, rfl, -⟩ := ControlMessage.hello.inj h
        exact ht ((tokenMatches_iff sha256).mpr htok)
    · rw [if_pos hv]
      refine Or.inr ⟨?_, rfl⟩
      rintro ⟨⟨_, _, _, h, -⟩, -⟩
      exact hv (ControlMessage.hello.inj h).1
  · rename_i hne
    right
    refine ⟨?_, rfl⟩
    rintro ⟨⟨_, _, _, rfl, -⟩, _, _, _, _, _, _, _, rfl⟩
    exact hne _ _ _ _ _ _ _ _ _ _ _ rfl rfl

/-- The reasons are short. -/
theorem sessionOutcome_reason_length (token : Option String) (hello start : ControlMessage)
    (r : String) (h : (sessionOutcome sha256 token hello start).2.2 = some r) :
    r.length ≤ 2 ^ 16 := by
  unfold sessionOutcome at h
  split at h
  · rename_i version _ _ _ _ _ _ _ _ _ _
    split_ifs at h
    · obtain rfl := Option.some.inj h
      have hv : version.toNat.repr.length ≤ 5 := by
        rw [Nat.length_repr_le_iff (by norm_num)]
        have := version.toNat_lt
        omega
      have hs : toString version = version.toNat.repr := rfl
      have hp : (toString "protocol version mismatch: ").length = 27 := by decide
      rw [String.length_append, hs, hp]
      omega
    · obtain rfl := Option.some.inj h
      decide
  · obtain rfl := Option.some.inj h
    decide

/-- Every `Ack` the server sends fits into a frame. -/
theorem framed_outcome (token : Option String) (hello start : ControlMessage) :
    Framed (.ack (sessionOutcome sha256 token hello start).1
      (sessionOutcome sha256 token hello start).2.1
      (sessionOutcome sha256 token hello start).2.2) :=
  framed_ack _ _ (sessionOutcome_reason_length sha256 token hello start)

/-! ## The handshake -/

/-- The two control frames at the front of a byte string. -/
def takeSession (bs : List UInt8) : Option ((ControlMessage × ControlMessage) × List UInt8) :=
  (takeControlFrame bs).bind fun r => (takeControlFrame r.2).map fun q => ((r.1, q.1), q.2)

/-- Without two frames, nothing is written and the handshake does not succeed. -/
theorem serverHandshake_none (t : HandlerTexts) (token : Option String) {c : Conn}
    (h : takeSession c.input = none) : ∃ e input,
      (serverHandshake sha256 t token).run c = (.error e, { c with input := input }) := by
  unfold serverHandshake
  cases hello : takeControlFrame c.input with
  | none =>
    obtain ⟨e, input, he⟩ := (parses_readControlFrameAsync.context t.readHello).error hello
    exact ⟨e, input, bind_error he⟩
  | some r =>
    rw [takeSession, hello, Option.bind_some, Option.map_eq_none_iff] at h
    obtain ⟨e, input, he⟩ := (parses_readControlFrameAsync.context t.readStart).error
      (c := { c with input := r.2 }) h
    refine ⟨e, input, ?_⟩
    rw [bind_ok ((parses_readControlFrameAsync.context t.readHello).ok hello), bind_error he]

/-- With two frames, the `Ack` is written and decides. -/
theorem serverHandshake_some (t : HandlerTexts) (token : Option String) {c : Conn}
    {hello start : ControlMessage} {rest : List UInt8}
    (h : takeSession c.input = some ((hello, start), rest)) :
    (serverHandshake sha256 t token).run c =
      ((if (sessionOutcome sha256 token hello start).2.1 then .ok ()
        else .error (.failed (.error (.msg
          ((sessionOutcome sha256 token hello start).2.2.getD "session rejected"))))),
        { c with
          input := rest
          output := c.output ++ frame (.ack (sessionOutcome sha256 token hello start).1
            (sessionOutcome sha256 token hello start).2.1
            (sessionOutcome sha256 token hello start).2.2) }) := by
  obtain ⟨⟨m, bs⟩, hm, h⟩ := Option.bind_eq_some_iff.mp h
  obtain ⟨⟨m', bs'⟩, hm', h⟩ := Option.map_eq_some_iff.mp h
  simp only [Prod.mk.injEq] at h
  obtain ⟨⟨rfl, rfl⟩, rfl⟩ := h
  have hread := (parses_readControlFrameAsync.context t.readHello).ok hm
  have hread' := (parses_readControlFrameAsync.context t.readStart).ok
    (c := { c with input := bs }) hm'
  have hwrite := writeControlFrameAsync_run (framed_outcome sha256 token m m').2
    { c with input := bs' }
  unfold serverHandshake
  rw [bind_ok hread, bind_ok hread', bind_ok (context_ok hwrite)]
  cases (sessionOutcome sha256 token m m').2.1 <;> rfl

/-- After an opening pair of messages the handshake succeeds. -/
theorem serverHandshake_opens (t : HandlerTexts) {token : Option String} {c : Conn}
    {hello start : ControlMessage} {rest : List UInt8}
    (h : takeSession c.input = some ((hello, start), rest))
    (ho : Opens sha256 token hello start) :
    (serverHandshake sha256 t token).run c = (.ok (), { c with
      input := rest
      output := c.output ++ frame (.ack (sessionIdOf hello start) true none) }) := by
  rcases sessionOutcome_accepted sha256 token hello start with ⟨-, hout⟩ | ⟨hno, -⟩
  · rw [serverHandshake_some sha256 t token h, sessionOutcome_sessionId, hout]
    rfl
  · exact absurd ho hno

/-- After any other pair of messages the session is refused. -/
theorem serverHandshake_refuses (t : HandlerTexts) {token : Option String} {c : Conn}
    {hello start : ControlMessage} {rest : List UInt8}
    (h : takeSession c.input = some ((hello, start), rest))
    (ho : ¬Opens sha256 token hello start) : ∃ reason text,
    Framed (.ack (sessionIdOf hello start) false reason) ∧
      (serverHandshake sha256 t token).run c = (.error (.failed (.error (.msg text))), { c with
        input := rest
        output := c.output ++ frame (.ack (sessionIdOf hello start) false reason) }) := by
  rcases sessionOutcome_accepted sha256 token hello start with ⟨hyes, -⟩ | ⟨-, hout⟩
  · exact absurd hyes ho
  · have hf := framed_outcome sha256 token hello start
    rw [sessionOutcome_sessionId, hout] at hf
    rw [serverHandshake_some sha256 t token h, sessionOutcome_sessionId, hout]
    exact ⟨_, _, hf, rfl⟩

/-! ## The handlers -/

/-- Whatever the error contexts, the handlers do the same. -/
theorem handleStream_alike (t t' : HandlerTexts) (token : Option String) :
    Alike (handleStream sha256 t token) (handleStream sha256 t' token) := by
  unfold handleStream serverHandshake
  refine Alike.bind ?_ fun _ c => ?_
  · refine ((Alike.refl _).context _ _).bind fun hello => ?_
    refine ((Alike.refl _).context _ _).bind fun start => ?_
    exact ((Alike.refl _).context _ _).bind fun _ => Alike.refl _
  · unfold serveData outcome
    dsimp only
    rw [dataLoop_eq, dataLoop_eq t', dataEnd_root t t']

/-- Closing the sending side changes nothing that was written. -/
theorem handleQuicStream_run (token : Option String) (c : Conn) :
    ((handleQuicStream sha256 token).run c).1 = ((handleStream sha256 quicTexts token).run c).1 ∧
      ((handleQuicStream sha256 token).run c).2.output =
        ((handleStream sha256 quicTexts token).run c).2.output := by
  unfold handleQuicStream
  rw [bind_run]
  rcases (handleStream sha256 quicTexts token).run c with ⟨_ | _, _⟩ <;> exact ⟨rfl, rfl⟩

theorem handleStream_run (t : HandlerTexts) (token : Option String) (c : Conn) :
    (handleStream sha256 t token).run c = match (serverHandshake sha256 t token).run c with
      | (.ok _, c') => dataLoop t [] c'
      | (.error e, c') => (.error e, c') := by
  rw [handleStream, bind_run]
  rcases (serverHandshake sha256 t token).run c with ⟨_ | _, _⟩ <;> rfl

/-! ## The gate -/

/-- A refusing `Ack` was written, and the handler failed. -/
def Refused (r : Except (Stop NetError) Unit × Conn) : Prop :=
  ∃ sessionId reason e,
    r.2.output = frame (.ack sessionId false reason) ∧ r.1 = .error (.failed e)

/-- An accepting `Ack` was written, and after it the headers of packets. -/
def Served (r : Except (Stop NetError) Unit × Conn) : Prop :=
  ∃ sessionId ps, r.2.output = frame (.ack sessionId true none) ++ echoes ps

/-- What a handler does when the bytes `bs` arrive. -/
structure Gated (token : Option String) (bs : List UInt8)
    (r : Except (Stop NetError) Unit × Conn) : Prop where
  /-- It writes nothing and does not succeed, or it refuses, or it serves. -/
  cases : (r.2.output = [] ∧ r.1 ≠ .ok ()) ∨ Refused r ∨ Served r
  /-- It serves exactly if the first two frames open a session. -/
  served_iff : Served r ↔ ∃ hello start rest,
    takeSession bs = some ((hello, start), rest) ∧ Opens sha256 token hello start
  /-- What it echoes are the headers of the packets after the two frames. -/
  echoed : ∀ {hello start rest}, takeSession bs = some ((hello, start), rest) →
    Opens sha256 token hello start →
      r.2.output = frame (.ack (sessionIdOf hello start) true none) ++ echoes (packets rest).1
  /-- Its `Ack` names the session. -/
  ack : ∀ {version clientName tokenHash capabilities sessionId transport streams durationMs
      payloadBytes intervalMs rateBps rest},
    takeSession bs = some ((.hello version clientName tokenHash capabilities,
      .startSession sessionId transport streams durationMs payloadBytes intervalMs rateBps),
      rest) →
    ∃ accepted reason ps, r.2.output = frame (.ack sessionId accepted reason) ++ echoes ps

/-- Being a gate is about the result and the output. -/
theorem Gated.of_eq {token : Option String} {bs : List UInt8}
    {r r' : Except (Stop NetError) Unit × Conn} (h : Gated sha256 token bs r)
    (h1 : r.1 = r'.1) (h2 : r.2.output = r'.2.output) : Gated sha256 token bs r' := by
  have hserved : Served r ↔ Served r' := by
    unfold Served
    rw [h2]
  have hrefused : Refused r ↔ Refused r' := by
    unfold Refused
    rw [h1, h2]
  refine ⟨?_, hserved.symm.trans h.served_iff, fun hs ho => h2 ▸ h.echoed hs ho,
    fun hs => h2 ▸ h.ack hs⟩
  rw [← h1, ← h2, ← hserved, ← hrefused]
  exact h.cases

/-- Nothing that was not served looks as if it was. -/
theorem not_served_of_output {r : Except (Stop NetError) Unit × Conn}
    (h : r.2.output = [] ∨ ∃ sessionId reason, Framed (.ack sessionId false reason) ∧
      r.2.output = frame (.ack sessionId false reason)) : ¬Served r := by
  rintro ⟨sessionId, ps, hs⟩
  have htrue := takeControlFrame_frame (@framed_ack sessionId true none (by simp))
    (echoes ps)
  rcases h with h | ⟨sessionId', reason, hf, h⟩
  · rw [h] at hs
    rw [← hs] at htrue
    cases htrue
  · have hfalse := takeControlFrame_frame hf []
    rw [List.append_nil, ← h, hs, htrue] at hfalse
    simp at hfalse

/-- A handler is a gate, whatever its error contexts. -/
theorem handleStream_gated (t : HandlerTexts) (token : Option String) (bs : List UInt8)
    (tail : StreamEnd) :
    Gated sha256 token bs ((handleStream sha256 t token).run { input := bs, tail := tail }) := by
  rw [handleStream_run]
  cases h : takeSession bs with
  | none =>
    obtain ⟨e, input, he⟩ := serverHandshake_none sha256 t token
      (c := { input := bs, tail := tail }) h
    rw [he]
    refine ⟨Or.inl ⟨rfl, nofun⟩, ⟨fun hs => absurd hs (not_served_of_output (Or.inl rfl)), ?_⟩,
      ?_, ?_⟩
    · rintro ⟨hello, start, rest, h', -⟩
      cases h.symm.trans h'
    · intro hello start rest h'
      cases h.symm.trans h'
    · intro _ _ _ _ _ _ _ _ _ _ _ _ h'
      cases h.symm.trans h'
  | some q =>
    obtain ⟨⟨hello, start⟩, rest⟩ := q
    by_cases ho : Opens sha256 token hello start
    · rw [serverHandshake_opens sha256 t (c := { input := bs, tail := tail }) h ho]
      dsimp only
      rw [dataLoop_eq]
      refine ⟨Or.inr (Or.inr ⟨_, _, rfl⟩), ⟨fun _ => ⟨hello, start, rest, h, ho⟩,
        fun _ => ⟨_, _, rfl⟩⟩, ?_, ?_⟩
      · intro hello' start' rest' h' _
        cases h.symm.trans h'
        rfl
      · intro _ _ _ _ _ _ _ _ _ _ _ _ h'
        cases h.symm.trans h'
        exact ⟨true, none, _, rfl⟩
    · obtain ⟨reason, text, hf, hrun⟩ := serverHandshake_refuses sha256 t
        (c := { input := bs, tail := tail }) h ho
      rw [hrun]
      refine ⟨Or.inr (Or.inl ⟨_, _, _, rfl, rfl⟩), ⟨fun hs => absurd hs
        (not_served_of_output (Or.inr ⟨_, _, hf, rfl⟩)), ?_⟩, ?_, ?_⟩
      · rintro ⟨hello', start', rest', h', ho'⟩
        cases h.symm.trans h'
        exact absurd ho' ho
      · intro hello' start' rest' h' ho'
        cases h.symm.trans h'
        exact absurd ho' ho
      · intro _ _ _ _ _ _ _ _ _ _ _ _ h'
        cases h.symm.trans h'
        exact ⟨false, reason, [], (List.append_nil _).symm⟩

/-- The QUIC handler finishes its stream, and else does the same. -/
theorem handleQuicStream_gated (token : Option String) (bs : List UInt8) (tail : StreamEnd) :
    Gated sha256 token bs
      ((handleQuicStream sha256 token).run { input := bs, tail := tail }) := by
  obtain ⟨h1, h2⟩ := handleQuicStream_run sha256 token { input := bs, tail := tail }
  exact (handleStream_gated sha256 quicTexts token bs tail).of_eq sha256 h1.symm h2.symm

/-- On any bytes that arrive, both handlers are gates, and they agree : they write the
same, and end alike apart from the contexts of an error and the kind of an I/O error. -/
theorem streamHandlers_gated (token : Option String) (bs : List UInt8) (tail : StreamEnd) :
    Gated sha256 token bs ((handleTcpConnection sha256 token).run { input := bs, tail := tail }) ∧
    Gated sha256 token bs ((handleQuicStream sha256 token).run { input := bs, tail := tail }) ∧
    ((handleTcpConnection sha256 token).run { input := bs, tail := tail }).2.output =
      ((handleQuicStream sha256 token).run { input := bs, tail := tail }).2.output ∧
    ((handleTcpConnection sha256 token).run { input := bs, tail := tail }).1.mapError Stop.cause =
      ((handleQuicStream sha256 token).run { input := bs, tail := tail }).1.mapError
        Stop.cause := by
  obtain ⟨h1, h2⟩ := handleQuicStream_run sha256 token { input := bs, tail := tail }
  have hsim := handleStream_alike sha256 tcpTexts quicTexts token { input := bs, tail := tail }
  obtain ⟨hres, hconn⟩ := Prod.mk.inj hsim
  refine ⟨handleStream_gated sha256 tcpTexts token bs tail,
    handleQuicStream_gated sha256 token bs tail, ?_, ?_⟩
  · rw [h2, ← hconn]
    rfl
  · rw [h1]
    exact mapError_cause hres

/-! ## What is echoed -/

/-- The bytes are the packets, as many as there are, and a remainder. -/
structure Decomposes (data : List UInt8) (ps : List Packet) (rest : List UInt8) : Prop where
  eq : data = ps.flatMap (fun p => p.header.encode ++ p.payload) ++ rest
  /-- The remainder does not start with a packet. -/
  maximal : ∀ (p : Packet) (rest' : List UInt8), rest ≠ p.header.encode ++ p.payload ++ rest'

omit sha256 in
theorem decomposes_iff {data rest : List UInt8} {ps : List Packet} :
    Decomposes data ps rest ↔ packets data = (ps, rest) := by
  rw [packets, Packet.wire.decodeAll_eq_iff Packet.wire_encode_ne_nil]
  constructor
  · rintro ⟨heq, hmax⟩
    refine ⟨fun _ _ => trivial, heq, ?_⟩
    by_contra hne
    obtain ⟨⟨p, rest'⟩, hdec⟩ := Option.ne_none_iff_exists'.mp hne
    exact hmax p rest' (Packet.wire.sound hdec).2
  · rintro ⟨-, heq, hnone⟩
    refine ⟨heq, fun p rest' hrest => ?_⟩
    have henc : Packet.wire.encode p = p.header.encode ++ p.payload := rfl
    rw [hrest, ← henc, Packet.wire.decode_encode trivial] at hnone
    cases hnone

/-- After an accepted handshake the bytes are packets and a remainder, in one way, and both
handlers write the headers of the packets, in order, and nothing else. -/
theorem streamHandlers_echo {token : Option String} {bs data : List UInt8}
    {hello start : ControlMessage} (h : takeSession bs = some ((hello, start), data))
    (ho : Opens sha256 token hello start) (tail : StreamEnd) :
    ∃ ps rest, Decomposes data ps rest ∧
      (∀ ps' rest', Decomposes data ps' rest' → ps' = ps ∧ rest' = rest) ∧
      ((handleTcpConnection sha256 token).run { input := bs, tail := tail }).2.output =
        frame (.ack (sessionIdOf hello start) true none) ++
          ps.flatMap (fun p => p.header.encode) ∧
      ((handleQuicStream sha256 token).run { input := bs, tail := tail }).2.output =
        frame (.ack (sessionIdOf hello start) true none) ++
          ps.flatMap (fun p => p.header.encode) := by
  have htcp : Gated sha256 token bs
      ((handleTcpConnection sha256 token).run { input := bs, tail := tail }) :=
    handleStream_gated sha256 tcpTexts token bs tail
  have hquic := handleQuicStream_gated sha256 token bs tail
  refine ⟨(packets data).1, (packets data).2, decomposes_iff.mpr rfl, fun ps' rest' hd => ?_,
    htcp.echoed h ho, hquic.echoed h ho⟩
  rw [decomposes_iff] at hd
  rw [hd]
  exact ⟨rfl, rfl⟩

end Handlers

/-- A packet with two bytes of payload, one without payload, and half a header. -/
theorem streamHandlers_echo_two :
    let hello : ControlMessage := .hello protocolVersion "c" none ["tcp", "multistream"]
    let start : ControlMessage := .startSession 7 "tcp" 1 1000 2 100 none
    let data := (DataHeader.new 7 0 1 0 2).encode ++ [83, 70] ++ (DataHeader.new 7 0 2 0 0).encode ++
      List.replicate 20 0
    let bs := frame hello ++ (frame start ++ data)
    let sha256 : List UInt8 → Digest := fun _ => List.Vector.replicate 32 0
    ∃ ps rest, Decomposes data ps rest ∧
      (∀ ps' rest', Decomposes data ps' rest' → ps' = ps ∧ rest' = rest) ∧
      ((handleTcpConnection sha256 none).run { input := bs, tail := .eof }).2.output =
        frame (.ack (sessionIdOf hello start) true none) ++
          ps.flatMap (fun p => p.header.encode) ∧
      ((handleQuicStream sha256 none).run { input := bs, tail := .eof }).2.output =
        frame (.ack (sessionIdOf hello start) true none) ++
          ps.flatMap (fun p => p.header.encode) := by
  intro hello start data bs sha256
  have hhello : Framed hello := framed_hello _ _ (by decide) (by decide) (by decide)
  have hstart : Framed start := framed_startSession _ _ _ _ _ _ (by decide)
  have hsession : takeSession bs = some ((hello, start), data) := by
    rw [takeSession, takeControlFrame_frame hhello, Option.bind_some,
      takeControlFrame_frame hstart, Option.map_some]
  have hopens : Opens sha256 none hello start :=
    ⟨⟨_, _, _, rfl, nofun⟩, _, _, _, _, _, _, _, rfl⟩
  exact streamHandlers_echo sha256 hsession hopens .eof

end Ipfusch
