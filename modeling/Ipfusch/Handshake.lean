import Ipfusch.Server
import Ipfusch.Stream

/-!
# The client's handshake

`controlHandshakeTcp` and `controlHandshakeQuic` : the client writes a `Hello` and a
`StartSession`, and reads the answer. `exchange` runs a client against a server, each on
what the other has written.

`handshake_agrees` is what both sides know afterwards : the client goes on exactly if the
server does, exactly if the server's token is the client's or there is none, and neither
side has touched the data that follows.
-/

namespace Ipfusch

open ByteConn

/-- `validate_ack` -/
def validateAck : ControlMessage → Except NetError Unit
  | .ack _ true _ => .ok ()
  | .ack _ false reason => .error (.msg (reason.getD "session rejected"))
  | _ => .error (.msg "unexpected control response")

section Client

variable (sha256 : List UInt8 → Digest)

/-- The `Hello` of a stream. -/
def clientHello (streamId : UInt32) (spec : StreamRunSpec) : ControlMessage :=
  .hello protocolVersion s!"ipfusch-stream-{streamId}" (spec.token.map (hashToken sha256))
    [spec.transport.toString, "multistream"]

/-- The `StartSession` of a stream. -/
def clientStart (sessionId : UInt64) (spec : StreamRunSpec) : ControlMessage :=
  .startSession sessionId spec.transport.toString 1 (UInt64.ofNat (spec.duration / 1000000))
    spec.payloadBytes 100 spec.rateBps

/-- What the handshakes on a stream have in common. -/
def controlHandshake (sessionId : UInt64) (streamId : UInt32) (spec : StreamRunSpec) :
    Net Unit := do
  writeControlFrameAsync (clientHello sha256 streamId spec)
  writeControlFrameAsync (clientStart sessionId spec)
  let msg ← readControlFrameAsync
  liftExcept (validateAck msg)

/-- `control_handshake_tcp` -/
def controlHandshakeTcp (sessionId : UInt64) (streamId : UInt32) (spec : StreamRunSpec) :
    Net Unit :=
  controlHandshake sha256 sessionId streamId spec

/-- `control_handshake_quic` -/
def controlHandshakeQuic (spec : StreamRunSpec) : Net Unit :=
  controlHandshake sha256 spec.sessionId spec.streamId spec

/-! ## What the client sends and accepts -/

theorem Transport.length_toString_le (t : Transport) : t.toString.length ≤ 4 := by
  cases t <;> decide

theorem length_clientName_le (streamId : UInt32) :
    (s!"ipfusch-stream-{streamId}").length ≤ 25 := by
  have hid : streamId.toNat.repr.length ≤ 10 := by
    rw [Nat.length_repr_le_iff (by norm_num)]
    have := streamId.toNat_lt
    omega
  have hs : toString streamId = streamId.toNat.repr := rfl
  have hp : (toString "ipfusch-stream-").length = 15 := by decide
  rw [String.length_append, hs, hp]
  omega

theorem framed_clientHello (streamId : UInt32) (spec : StreamRunSpec) :
    Framed (clientHello sha256 streamId spec) :=
  framed_hello _ _ ((length_clientName_le streamId).trans (by omega))
    (spec.transport.length_toString_le.trans (by omega)) (by decide)

/-- A `Hello` is short. -/
theorem length_clientHello_le (streamId : UInt32) (spec : StreamRunSpec) :
    (clientHello sha256 streamId spec).serialize.length ≤ 1000 := by
  have hname := PrefixCodec.length_utf8_le (s!"ipfusch-stream-{streamId}")
  have hname' := length_clientName_le streamId
  have htransport := PrefixCodec.length_utf8_le spec.transport.toString
  have htransport' := spec.transport.length_toString_le
  have hmulti := PrefixCodec.length_utf8_le "multistream"
  have hmulti' : "multistream".length = 11 := by decide
  unfold clientHello
  generalize s!"ipfusch-stream-{streamId}" = clientName at *
  generalize "multistream" = multistream at *
  cases spec.token <;>
  · simp [ControlMessage.serialize, ControlMessage.bincode, ControlMessage.fieldsEquiv,
      ControlMessage.fieldsCodec]
    omega

theorem framed_clientStart (sessionId : UInt64) (spec : StreamRunSpec) :
    Framed (clientStart sessionId spec) :=
  framed_startSession _ _ _ _ _ _ (spec.transport.length_toString_le.trans (by omega))

/-- The two frames the client starts with. -/
def clientRequest (sessionId : UInt64) (streamId : UInt32) (spec : StreamRunSpec) : List UInt8 :=
  frame (clientHello sha256 streamId spec) ++ frame (clientStart sessionId spec)

theorem takeSession_clientRequest (sessionId : UInt64) (streamId : UInt32) (spec : StreamRunSpec)
    (data : List UInt8) : takeSession (clientRequest sha256 sessionId streamId spec ++ data) =
      some ((clientHello sha256 streamId spec, clientStart sessionId spec), data) := by
  rw [takeSession, clientRequest, List.append_assoc,
    takeControlFrame_frame (framed_clientHello sha256 streamId spec), Option.bind_some,
    takeControlFrame_frame (framed_clientStart sessionId spec), Option.map_some]

/-- The server opens a session for a client exactly if it has no token or the client's. -/
theorem opens_client (token : Option String) (sessionId : UInt64) (streamId : UInt32)
    (spec : StreamRunSpec) :
    Opens sha256 token (clientHello sha256 streamId spec) (clientStart sessionId spec) ↔
      token = none ∨ spec.token.map (hashToken sha256) = token.map (hashToken sha256) := by
  rw [← tokenMatches_map_hashToken, tokenMatches_iff]
  constructor
  · rintro ⟨⟨_, _, _, h, htok⟩, -⟩
    obtain ⟨-, -, rfl, -⟩ := ControlMessage.hello.inj h
    exact htok
  · intro htok
    exact ⟨⟨_, _, _, rfl, htok⟩, _, _, _, _, _, _, _, rfl⟩

/-- The client writes its request and acts on the answer. -/
theorem controlHandshake_run (sessionId : UInt64) (streamId : UInt32) (spec : StreamRunSpec)
    {c : Conn} {msg : ControlMessage} {rest : List UInt8}
    (h : takeControlFrame c.input = some (msg, rest)) :
    (controlHandshake sha256 sessionId streamId spec).run c =
      ((liftExcept (validateAck msg) : Net Unit).run { c with
        input := rest
        output := c.output ++ clientRequest sha256 sessionId streamId spec }) := by
  unfold controlHandshake clientRequest
  rw [bind_ok (writeControlFrameAsync_run (framed_clientHello sha256 streamId spec).2 c),
    bind_ok (writeControlFrameAsync_run (framed_clientStart sessionId spec).2 _),
    bind_ok (parses_readControlFrameAsync.ok (by exact h)), List.append_assoc]

/-- Before the answer, the client has written its request and waits. -/
theorem controlHandshake_silent (sessionId : UInt64) (streamId : UInt32) (spec : StreamRunSpec) :
    ((controlHandshake sha256 sessionId streamId spec).run
      { input := [], tail := .silent }).2.output =
        clientRequest sha256 sessionId streamId spec := by
  unfold controlHandshake clientRequest
  obtain ⟨e, input, he⟩ := parses_readControlFrameAsync.error (c := Conn.mk [] .silent
    (frame (clientHello sha256 streamId spec) ++ frame (clientStart sessionId spec)) false) rfl
  rw [bind_ok (writeControlFrameAsync_run (framed_clientHello sha256 streamId spec).2 _),
    bind_ok (writeControlFrameAsync_run (framed_clientStart sessionId spec).2 _),
    List.nil_append, bind_error he]

/-! ## Client against server -/

/-- A client and a server, each run on what the other has written : the client writes
until it waits, the server answers, the client reads the answer. `data` is what the client
writes later, and `echoes` what the server writes later. -/
def exchange (client server : Net Unit) (data echoes : List UInt8) (tail tail' : StreamEnd) :
    (Except (Stop NetError) Unit × Conn) × (Except (Stop NetError) Unit × Conn) :=
  let request := (client.run { input := [], tail := .silent }).2.output
  let served := server.run { input := request ++ data, tail := tail }
  (client.run { input := served.2.output ++ echoes, tail := tail' }, served)

/-- Client and server agree on whether the session is open, which is the case exactly if
`same`, and what each of them writes later is where the other one reads next. -/
structure HandshakeAgrees (client server : Net Unit) (same : Prop) (data echoes : List UInt8)
    (tail tail' : StreamEnd) : Prop where
  /-- The client goes on exactly if the server does. -/
  client_iff_server : (exchange client server data echoes tail tail').1.1 = .ok () ↔
    (exchange client server data echoes tail tail').2.1 = .ok ()
  server_iff : (exchange client server data echoes tail tail').2.1 = .ok () ↔ same
  client_fails : ¬same → ∃ e, (exchange client server data echoes tail tail').1.1 =
    .error (.failed e)
  /-- The server reads next what the client writes after its handshake. -/
  server_input : (exchange client server data echoes tail tail').2.2.input = data
  /-- The client reads next what the server writes after its `Ack`. -/
  client_input : (exchange client server data echoes tail tail').1.2.input = echoes
  /-- What the client has written is what the server was run on. -/
  client_output : (exchange client server data echoes tail tail').1.2.output =
    (client.run { input := [], tail := .silent }).2.output

section Exchange

variable (t : HandlerTexts) (token : Option String) (sessionId : UInt64) (streamId : UInt32)
  (spec : StreamRunSpec) (data echoes : List UInt8) (tail tail' : StreamEnd)

theorem exchange_opens
    (ho : Opens sha256 token (clientHello sha256 streamId spec) (clientStart sessionId spec)) :
    ∃ output, exchange (controlHandshake sha256 sessionId streamId spec)
      (serverHandshake sha256 t token) data echoes tail tail' =
        ((.ok (), ⟨echoes, tail', clientRequest sha256 sessionId streamId spec, false⟩),
          (.ok (), ⟨data, tail, output, false⟩)) := by
  have htake := takeSession_clientRequest sha256 sessionId streamId spec data
  unfold exchange
  dsimp only
  rw [controlHandshake_silent, serverHandshake_opens sha256 t (c := Conn.mk _ tail [] false) htake ho]
  dsimp only
  rw [List.nil_append, controlHandshake_run sha256 sessionId streamId spec
    (c := Conn.mk _ tail' [] false)
    (takeControlFrame_frame (framed_ack _ true (by simp)) echoes)]
  exact ⟨_, rfl⟩

theorem exchange_refuses
    (ho : ¬Opens sha256 token (clientHello sha256 streamId spec) (clientStart sessionId spec)) :
    ∃ e e' output, exchange (controlHandshake sha256 sessionId streamId spec)
      (serverHandshake sha256 t token) data echoes tail tail' =
        ((.error (.failed e), ⟨echoes, tail', clientRequest sha256 sessionId streamId spec, false⟩),
          (.error e', ⟨data, tail, output, false⟩)) := by
  have htake := takeSession_clientRequest sha256 sessionId streamId spec data
  obtain ⟨reason, text, hf, hs⟩ := serverHandshake_refuses sha256 t
    (c := Conn.mk _ tail [] false) htake ho
  unfold exchange
  dsimp only
  rw [controlHandshake_silent, hs]
  dsimp only
  rw [List.nil_append, controlHandshake_run sha256 sessionId streamId spec
    (c := Conn.mk _ tail' [] false) (takeControlFrame_frame hf echoes)]
  exact ⟨_, _, _, rfl⟩

theorem controlHandshake_agrees : HandshakeAgrees (controlHandshake sha256 sessionId streamId spec)
    (serverHandshake sha256 t token)
    (token = none ∨ spec.token.map (hashToken sha256) = token.map (hashToken sha256))
    data echoes tail tail' := by
  rw [← opens_client sha256 token sessionId streamId spec]
  by_cases ho : Opens sha256 token (clientHello sha256 streamId spec) (clientStart sessionId spec)
  · obtain ⟨output, h⟩ := exchange_opens sha256 t token sessionId streamId spec data echoes
      tail tail' ho
    refine ⟨?_, ?_, fun hno => absurd ho hno, ?_, ?_, ?_⟩ <;> rw [h]
    · simp only [ho]
    · rw [controlHandshake_silent]
  · obtain ⟨e, e', output, h⟩ := exchange_refuses sha256 t token sessionId streamId spec data
      echoes tail tail' ho
    refine ⟨?_, ?_, fun _ => ⟨e, ?_⟩, ?_, ?_, ?_⟩ <;> rw [h]
    · simp only [reduceCtorEq]
    · simp only [ho, reduceCtorEq]
    · rw [controlHandshake_silent]

end Exchange

/-- Over TCP and over QUIC, for any stream and any token of the server, the two sides
agree, and the session is open exactly if the server has no token or the client's. -/
theorem handshake_agrees (spec : StreamRunSpec) (token : Option String)
    (data echoes : List UInt8) (tail tail' : StreamEnd) :
    HandshakeAgrees (controlHandshakeTcp sha256 spec.sessionId spec.streamId spec)
      (serverHandshake sha256 tcpTexts token)
      (token = none ∨ spec.token.map (hashToken sha256) = token.map (hashToken sha256))
      data echoes tail tail' ∧
    HandshakeAgrees (controlHandshakeQuic sha256 spec) (serverHandshake sha256 quicTexts token)
      (token = none ∨ spec.token.map (hashToken sha256) = token.map (hashToken sha256))
      data echoes tail tail' :=
  ⟨controlHandshake_agrees sha256 tcpTexts token _ _ spec data echoes tail tail',
    controlHandshake_agrees sha256 quicTexts token _ _ spec data echoes tail tail'⟩

end Client

end Ipfusch
