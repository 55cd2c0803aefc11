import Ipfusch.EchoLoop
import Ipfusch.Framing
import Ipfusch.QuicSystem

/-!
# The QUIC client and the server's data loop

`quicEcho` composes the loop of `run_stream_quic` with the data loop of `handle_quic_stream` over a
stream of bytes in each direction. `write_all` puts a frame into the stream in chunks, the server
reads and writes in chunks, and what it has written becomes readable at any later time.

`quicEcho_refines` : to the client this is `quicSystem`, whose server echoes each header at once.
The bytes that `quicSystem` owes are those of the echoes that are on their way, that the server is
writing, and of the packets that it has not read to their end.
-/

namespace Ipfusch

/-- The client, the server, and the streams between them. -/
structure QuicEchoState where
  clock : ℕ
  client : WaitState
  frame : List UInt8
  /-- The bytes of the frame that `write_all` has not put into the stream. -/
  unsent : List UInt8
  toServer : List UInt8
  server : EchoPc
  /-- What the server has written and the client cannot read yet. -/
  toClient : List UInt8
  /-- The bytes that can be read. -/
  stream : List UInt8
  /-- The part of the buffer of `read_exact` that is filled. -/
  got : List UInt8
  /-- How many bytes became readable so far. -/
  echoed : ℕ

/-- What happens in a run. -/
inductive QuicEchoObs
  | client (o : QuicObs)
  | server (o : EchoObs)

/-- What can come next. -/
inductive QuicEchoAction
  /-- Time passes. -/
  | wait (n : ℕ)
  /-- The client's next step. -/
  | tick
  /-- `write_all` puts `n` bytes into the stream, and is complete with the last one. -/
  | write (n : ℕ)
  /-- The client's write fails. -/
  | writeFails
  /-- The server reads `n` bytes. -/
  | serverRead (n : ℕ)
  /-- The server writes `n` bytes. -/
  | serverWrite (n : ℕ)
  /-- The server's read or write is complete. -/
  | serverNext
  /-- The server's read comes to the end of the stream. -/
  | serverEof
  /-- The next `n` bytes become readable. -/
  | arrive (n : ℕ)
  /-- `read_exact` consumes `n` bytes. -/
  | read (n : ℕ)
  /-- `read_exact` is complete. -/
  | readDone
  /-- `read_exact` fails. -/
  | readFails
  /-- The timeout elapses. -/
  | elapsed

/-- The client closed its side. -/
def WaitPc.ended : WaitPc → Bool
  | .done | .failed | .panicked => true
  | _ => false

/-- The system after a step of the loop. The step into a write fills in the frame. -/
def QuicEchoState.resume (spec : StreamRunSpec) (s : QuicEchoState) (client : WaitState) :
    QuicEchoState :=
  match client.pc with
  | .send sendMonoNs =>
    let frame := fillFrame s.frame (client.header spec sendMonoNs)
    { s with client := client, frame := frame, unsent := frame }
  | _ => { s with client := client }

theorem QuicEchoState.resume_client (spec : StreamRunSpec) (s : QuicEchoState)
    (client : WaitState) :
    (s.resume spec client).clock = s.clock ∧ (s.resume spec client).client = client := by
  unfold QuicEchoState.resume
  split <;> exact ⟨rfl, rfl⟩

/-- The system after a step of the server. -/
def QuicEchoState.onServer (s : QuicEchoState) (a : EchoAction) :
    Option (QuicEchoState × List QuicEchoObs) :=
  (echoStep s.server a).map fun r =>
    ({ s with server := r.1, toClient := s.toClient ++ bytesWritten r.2 }, r.2.map .server)

/-- One step of the system. -/
def quicEchoStep (spec : StreamRunSpec) (s : QuicEchoState) :
    QuicEchoAction → Option (QuicEchoState × List QuicEchoObs)
  | .wait n => some ({ s with clock := s.clock + n }, [])
  | .tick => (waitTick spec s.client s.clock).map fun client => (s.resume spec client, [])
  | .write n =>
    match s.client.pc with
    | .send sendMonoNs =>
      if n < s.unsent.length then
        some ({ s with unsent := s.unsent.drop n, toServer := s.toServer ++ s.unsent.take n }, [])
      else
        some ({ s with
          client := { s.client with pc := .measure sendMonoNs }
          unsent := []
          toServer := s.toServer ++ s.unsent }, [.client (.sent s.client.seq s.clock)])
    | _ => none
  | .writeFails =>
    match s.client.pc with
    | .send _ => some ({ s with client := { s.client with pc := .failed } }, [])
    | _ => none
  | .serverRead n =>
    if n ≤ s.toServer.length then
      { s with toServer := s.toServer.drop n }.onServer (.read (s.toServer.take n))
    else none
  | .serverWrite n => s.onServer (.write n)
  | .serverNext => s.onServer .next
  | .serverEof => if s.client.pc.ended ∧ s.toServer = [] then s.onServer .eof else none
  | .arrive n =>
    if n ≤ s.toClient.length then
      some ({ s with
        stream := s.stream ++ s.toClient.take n
        toClient := s.toClient.drop n
        echoed := s.echoed + n }, [.client (.arrived (s.echoed + n) s.clock)])
    else none
  | .read n =>
    match s.client.pc with
    | .recv _ _ _ =>
      if n ≤ dataHeaderSize - s.got.length ∧ n ≤ s.stream.length then
        some ({ s with got := s.got ++ s.stream.take n, stream := s.stream.drop n }, [])
      else none
    | _ => none
  | .readDone =>
    match s.client.pc with
    | .recv sendMonoNs measured _ =>
      if s.got.length = dataHeaderSize then
        let r := onHeader spec s.client sendMonoNs measured s.got s.clock
        some ({ s with client := r.1, got := [] }, r.2.map .client)
      else none
    | _ => none
  | .readFails =>
    match s.client.pc with
    | .recv sendMonoNs measured _ =>
      if s.got.length < dataHeaderSize then
        some ({ s with client := { s.client with pc := .head }, got := [] },
          [.client (.event (s.client.report spec sendMonoNs measured none))])
      else none
    | _ => none
  | .elapsed =>
    match s.client.pc with
    | .recv sendMonoNs measured deadline =>
      -- `timeout` polls the read before it looks at the clock.
      if s.got.length < dataHeaderSize ∧ s.stream = [] ∧ deadline ≤ s.clock then
        some ({ s with client := { s.client with pc := .head }, got := [] },
          [.client (.event (s.client.report spec sendMonoNs measured none))])
      else none
    | _ => none

/-- The data phase of a QUIC stream, from its start. -/
def quicEcho (spec : StreamRunSpec) (start : ℕ) :
    Machine QuicEchoState QuicEchoAction QuicEchoObs where
  init :=
    { clock := start
      client := ⟨start, .begin, 0, 0⟩
      frame := List.replicate (dataHeaderSize + spec.payloadBytes.toNat) 0
      unsent := []
      toServer := []
      server := echoLoop.init
      toClient := []
      stream := []
      got := []
      echoed := 0 }
  step := quicEchoStep spec

/-! ## What a step can do -/

theorem onServer_cases {s s' : QuicEchoState} {a : EchoAction} {o : List QuicEchoObs}
    (h : s.onServer a = some (s', o)) : ∃ e o', EchoEffect s.server e a o' ∧
      s' = { s with server := e, toClient := s.toClient ++ bytesWritten o' } ∧
      o = o'.map .server := by
  obtain ⟨⟨e, o'⟩, hstep, h⟩ := Option.map_eq_some_iff.mp h
  obtain ⟨rfl, rfl⟩ := Prod.mk.inj h
  exact ⟨e, o', echoStep_effect hstep, rfl, rfl⟩

/-- What the server does, if it reads nothing. -/
def QuicEchoAction.server? : QuicEchoAction → Option EchoAction
  | .serverWrite n => some (.write n)
  | .serverNext => some .next
  | .serverEof => some .eof
  | _ => none

/-- The steps of the system. -/
inductive QuicEchoMove (spec : StreamRunSpec) (s : QuicEchoState) :
    QuicEchoAction → QuicEchoState → List QuicEchoObs → Prop
  | wait (n : ℕ) : QuicEchoMove spec s (.wait n) { s with clock := s.clock + n } []
  | tick (client : WaitState) (htick : waitTick spec s.client s.clock = some client) :
      QuicEchoMove spec s .tick (s.resume spec client) []
  | chunk (n sendMonoNs : ℕ) (hpc : s.client.pc = .send sendMonoNs) (hn : n < s.unsent.length) :
      QuicEchoMove spec s (.write n) { s with
        unsent := s.unsent.drop n, toServer := s.toServer ++ s.unsent.take n } []
  | written (n sendMonoNs : ℕ) (hpc : s.client.pc = .send sendMonoNs)
      (hn : ¬n < s.unsent.length) : QuicEchoMove spec s (.write n) { s with
        client := { s.client with pc := .measure sendMonoNs }
        unsent := []
        toServer := s.toServer ++ s.unsent } [.client (.sent s.client.seq s.clock)]
  | writeFails (sendMonoNs : ℕ) (hpc : s.client.pc = .send sendMonoNs) :
      QuicEchoMove spec s .writeFails { s with client := { s.client with pc := .failed } } []
  | serverRead (n : ℕ) (e : EchoPc) (o : List EchoObs)
      (he : EchoEffect s.server e (.read (s.toServer.take n)) o) :
      QuicEchoMove spec s (.serverRead n) { s with
        server := e
        toServer := s.toServer.drop n
        toClient := s.toClient ++ bytesWritten o } (o.map .server)
  | server (a : QuicEchoAction) (b : EchoAction) (e : EchoPc) (o : List EchoObs)
      (ha : a.server? = some b) (he : EchoEffect s.server e b o) :
      QuicEchoMove spec s a { s with
        server := e, toClient := s.toClient ++ bytesWritten o } (o.map .server)
  | arrive (n : ℕ) (hn : n ≤ s.toClient.length) : QuicEchoMove spec s (.arrive n) { s with
      stream := s.stream ++ s.toClient.take n
      toClient := s.toClient.drop n
      echoed := s.echoed + n } [.client (.arrived (s.echoed + n) s.clock)]
  | read (n sendMonoNs : ℕ) (measured : Bool) (deadline : ℕ)
      (hpc : s.client.pc = .recv sendMonoNs measured deadline)
      (hn : n ≤ dataHeaderSize - s.got.length ∧ n ≤ s.stream.length) :
      QuicEchoMove spec s (.read n) { s with
        got := s.got ++ s.stream.take n, stream := s.stream.drop n } []
  | readDone (sendMonoNs : ℕ) (measured : Bool) (deadline : ℕ)
      (hpc : s.client.pc = .recv sendMonoNs measured deadline)
      (hlen : s.got.length = dataHeaderSize) : QuicEchoMove spec s .readDone { s with
        client := (onHeader (β := ℕ) spec s.client sendMonoNs measured s.got s.clock).1
        got := [] } ((onHeader spec s.client sendMonoNs measured s.got s.clock).2.map .client)
  /-- The read fails, or its timeout elapses. -/
  | lost (a : QuicEchoAction) (sendMonoNs : ℕ) (measured : Bool) (deadline : ℕ)
      (hpc : s.client.pc = .recv sendMonoNs measured deadline)
      (hlen : s.got.length < dataHeaderSize)
      (ha : a = .readFails ∨ a = .elapsed ∧ s.stream = [] ∧ deadline ≤ s.clock) :
      QuicEchoMove spec s a { s with client := { s.client with pc := .head }, got := [] }
        [.client (.event (s.client.report spec sendMonoNs measured none))]

theorem quicEchoStep_move {spec : StreamRunSpec} {s s' : QuicEchoState} {a : QuicEchoAction}
    {o : List QuicEchoObs} (hs : quicEchoStep spec s a = some (s', o)) :
    QuicEchoMove spec s a s' o := by
  unfold quicEchoStep at hs
  cases a with
  | wait n =>
    obtain ⟨rfl, rfl⟩ := Prod.mk.inj (Option.some.inj hs)
    exact .wait n
  | tick =>
    obtain ⟨client, htick, hs⟩ := Option.map_eq_some_iff.mp hs
    obtain ⟨rfl, rfl⟩ := Prod.mk.inj hs
    exact .tick client htick
  | write n =>
    dsimp only at hs
    split at hs
    · rename_i sendMonoNs hpc
      split_ifs at hs with hn <;> obtain ⟨rfl, rfl⟩ := Prod.mk.inj (Option.some.inj hs)
      · exact .chunk n sendMonoNs hpc hn
      · exact .written n sendMonoNs hpc hn
    · cases hs
  | writeFails =>
    dsimp only at hs
    split at hs
    · rename_i sendMonoNs hpc
      obtain ⟨rfl, rfl⟩ := Prod.mk.inj (Option.some.inj hs)
      exact .writeFails sendMonoNs hpc
    · cases hs
  | serverRead n =>
    dsimp only at hs
    split_ifs at hs
    obtain ⟨e, o, he, rfl, rfl⟩ := onServer_cases hs
    exact .serverRead n e o he
  | serverWrite n =>
    obtain ⟨e, o, he, rfl, rfl⟩ := onServer_cases (a := .write n) hs
    exact .server _ _ e o rfl he
  | serverNext =>
    obtain ⟨e, o, he, rfl, rfl⟩ := onServer_cases (a := .next) hs
    exact .server _ _ e o rfl he
  | serverEof =>
    dsimp only at hs
    split_ifs at hs
    obtain ⟨e, o, he, rfl, rfl⟩ := onServer_cases hs
    exact .server _ _ e o rfl he
  | arrive n =>
    dsimp only at hs
    split_ifs at hs with hn
    obtain ⟨rfl, rfl⟩ := Prod.mk.inj (Option.some.inj hs)
    exact .arrive n hn
  | read n =>
    dsimp only at hs
    split at hs
    · rename_i sendMonoNs measured deadline hpc
      split_ifs at hs with hn
      obtain ⟨rfl, rfl⟩ := Prod.mk.inj (Option.some.inj hs)
      exact .read n sendMonoNs measured deadline hpc hn
    · cases hs
  | readDone =>
    dsimp only at hs
    split at hs
    · rename_i sendMonoNs measured deadline hpc
      split_ifs at hs with hlen
      obtain ⟨rfl, rfl⟩ := Prod.mk.inj (Option.some.inj hs)
      exact .readDone sendMonoNs measured deadline hpc hlen
    · cases hs
  | readFails =>
    dsimp only at hs
    split at hs
    · rename_i sendMonoNs measured deadline hpc
      split_ifs at hs with hlen
      obtain ⟨rfl, rfl⟩ := Prod.mk.inj (Option.some.inj hs)
      exact .lost _ sendMonoNs measured deadline hpc hlen (.inl rfl)
    · cases hs
  | elapsed =>
    dsimp only at hs
    split at hs
    · rename_i sendMonoNs measured deadline hpc
      split_ifs at hs with hready
      obtain ⟨rfl, rfl⟩ := Prod.mk.inj (Option.some.inj hs)
      exact .lost _ sendMonoNs measured deadline hpc hready.1 (.inr ⟨rfl, hready.2⟩)
    · cases hs

/-! ## The parties of a run -/

/-- What the client shows. -/
def QuicEchoObs.client? : QuicEchoObs → Option QuicObs
  | .client o => some o
  | .server _ => none

/-- What the server shows. -/
def QuicEchoObs.server? : QuicEchoObs → Option EchoObs
  | .client _ => none
  | .server o => some o

theorem filterMap_client (o : List QuicObs) :
    (o.map QuicEchoObs.client).filterMap QuicEchoObs.client? = o := by
  rw [List.filterMap_map]
  exact List.filterMap_some

theorem filterMap_client_server (o : List EchoObs) :
    (o.map QuicEchoObs.server).filterMap QuicEchoObs.client? = [] := by
  rw [List.filterMap_map]
  exact List.filterMap_eq_nil_iff.mpr fun _ _ => rfl

/-! ## The bytes between client and server -/

section Refinement

variable {spec : StreamRunSpec} (hfit : spec.payloadBytes.toNat < 2 ^ 32)

/-- The packet that is written. -/
def WaitState.packet (w : WaitState) (sendMonoNs : ℕ) : Packet :=
  framePacket hfit (UInt64.ofNat w.seq) (UInt64.ofNat sendMonoNs)

/-- The packet of the loop that is not sent to its end. -/
def Sending (s : QuicEchoState) (packets : List Packet) : Prop :=
  (packets = [] ∧ s.unsent = [] ∧ s.client.pc.unsent = false) ∨
    ∃ sendMonoNs, packets = [s.client.packet hfit sendMonoNs] ∧ s.unsent ≠ [] ∧
      (s.client.pc = .send sendMonoNs ∨ s.client.pc = .failed)

/-- The packets that the server is still to read are on their way, and `quicSystem` owes their
echoes and those that are on the way back. -/
structure Matches (s : QuicEchoState) (u : QuicState) : Prop where
  clock : u.clock = s.clock
  client : u.client = s.client
  got : u.got = s.got
  stream : u.stream = s.stream
  echoed : u.echoed = s.echoed
  zeroPayload : ZeroPayload spec s.frame
  bytes : ∃ todo sending, Sending hfit s sending ∧
    s.server.got ++ s.toServer ++ s.unsent = (todo ++ sending).flatMap Packet.wire.encode ∧
    u.owed = s.toClient ++ s.server.left ++ (todo.map Packet.header).flatMap DataHeader.encode

theorem matches_init (start : ℕ) :
    Matches hfit (quicEcho spec start).init (quicSystem spec start).init where
  clock := rfl
  client := rfl
  got := rfl
  stream := rfl
  echoed := rfl
  zeroPayload := by
    show (List.replicate _ 0).drop _ = _
    rw [List.drop_replicate, Nat.add_sub_cancel_left]
  bytes := ⟨[], [], .inl ⟨rfl, rfl, rfl⟩, rfl, rfl⟩

variable {hfit} {s : QuicEchoState} {u : QuicState}

/-! ## Steps of the server -/

/-- The server moves bytes, and none is lost on the way. -/
theorem Matches.moved (h : Matches hfit s u) {e : EchoPc} {toServer toClient : List UInt8}
    (hread : e.got ++ toServer = s.server.got ++ s.toServer)
    (hwrite : toClient ++ e.left = s.toClient ++ s.server.left) :
    Matches hfit { s with server := e, toServer := toServer, toClient := toClient } u := by
  obtain ⟨todo, sending, hsending, hbytes, howed⟩ := h.bytes
  refine ⟨h.clock, h.client, h.got, h.stream, h.echoed, h.zeroPayload, todo, sending, hsending,
    ?_, ?_⟩
  · rw [hread]
    exact hbytes
  · rw [hwrite]
    exact howed

/-- What is not sent to its end is not read to its end. -/
theorem Sending.length_le {sending : List Packet} (h : Sending hfit s sending) {p : Packet}
    {todo : List Packet} (hbytes : (Packet.wire.encode p ++ s.toServer) ++ s.unsent =
      (todo ++ sending).flatMap Packet.wire.encode) :
    ∃ rest, todo = p :: rest ∧ s.toServer ++ s.unsent =
      (rest ++ sending).flatMap Packet.wire.encode := by
  rw [List.append_assoc] at hbytes
  obtain ⟨rest, hrest, hleft⟩ := Packet.wire.flatMap_eq_append Packet.wire_encode_ne_nil trivial
    (fun _ _ => trivial) hbytes
  cases todo with
  | cons q todo =>
    obtain ⟨rfl, rfl⟩ := List.cons.inj hrest
    exact ⟨todo, rfl, hleft⟩
  | nil =>
    rcases h with ⟨rfl, -, -⟩ | ⟨m, rfl, hunsent, -⟩
    · cases hrest
    · obtain ⟨-, rfl⟩ := List.cons.inj hrest
      exact absurd (List.append_eq_nil_iff.mp hleft).2 hunsent

/-- The server has read a packet to its end, and is to write the echo. -/
theorem Matches.served (h : Matches hfit s u) {e : EchoPc} {p : Packet}
    (hgot : s.server.got = Packet.wire.encode p) (hleft : s.server.left = []) (hgot' : e.got = [])
    (hleft' : e.left = p.header.encode) : Matches hfit { s with server := e } u := by
  obtain ⟨todo, sending, hsending, hbytes, howed⟩ := h.bytes
  rw [hgot] at hbytes
  obtain ⟨rest, rfl, hrest⟩ := hsending.length_le hbytes
  refine ⟨h.clock, h.client, h.got, h.stream, h.echoed, h.zeroPayload, rest, sending, hsending,
    ?_, ?_⟩
  · rw [hgot', List.nil_append]
    exact hrest
  · rw [howed, hleft, hleft', List.append_nil, List.map_cons, List.flatMap_cons, List.append_assoc]

theorem Matches.onServer (h : Matches hfit s u) {a : EchoAction} {e : EchoPc} {o : List EchoObs}
    (ha : ∀ chunk, a ≠ .read chunk) (he : EchoEffect s.server e a o) :
    Matches hfit { s with server := e, toClient := s.toClient ++ bytesWritten o } u := by
  cases he with
  | read chunk _ _ => exact absurd rfl (ha chunk)
  | moved hgot hleft | closed hgot hleft =>
    exact h.moved (by rw [hgot]) (by simp [hleft, bytesWritten])
  | wrote n chunk hgot hleft => exact h.moved (by rw [hgot]) (by simp [hleft, bytesWritten])
  | served p hgot hleft hgot' hleft' =>
    have hmatches := h.served hgot hleft hgot' hleft'
    rw [show bytesWritten [.served p] = [] from rfl, List.append_nil]
    exact hmatches

/-! ## Steps of the client -/

/-- Nothing is left of a packet, unless its write is under way or failed. -/
theorem Sending.nil {sending : List Packet} (h : Sending hfit s sending)
    (hpc : s.client.pc.unsent = false) (hfailed : s.client.pc ≠ .failed) :
    sending = [] ∧ s.unsent = [] := by
  rcases h with ⟨hnil, hunsent, -⟩ | ⟨m, -, -, hm | hm⟩
  · exact ⟨hnil, hunsent⟩
  · rw [hm] at hpc
    cases hpc
  · exact absurd hm hfailed

/-- The loop goes on, and no packet is written. -/
theorem Matches.move (h : Matches hfit s u) (hpc : s.client.pc.unsent = false)
    (hfailed : s.client.pc ≠ .failed) {client : WaitState} (hpc' : client.pc.unsent = false) :
    Matches hfit { s with client := client } { u with client := client } := by
  obtain ⟨todo, sending, hsending, hbytes, howed⟩ := h.bytes
  obtain ⟨rfl, hunsent⟩ := hsending.nil hpc hfailed
  exact ⟨h.clock, rfl, h.got, h.stream, h.echoed, h.zeroPayload, todo, [],
    .inl ⟨rfl, hunsent, hpc'⟩, hbytes, howed⟩

/-- The wait for an echo ends. -/
theorem Matches.waited (h : Matches hfit s u) {sendMonoNs deadline : ℕ} {measured : Bool}
    (hpc : s.client.pc = .recv sendMonoNs measured deadline) {client : WaitState}
    (hpc' : client.pc.unsent = false) :
    Matches hfit { s with client := client, got := [] } { u with client := client, got := [] } := by
  have hmove := h.move (by rw [hpc]; rfl) (by rw [hpc]; nofun) hpc'
  exact ⟨hmove.clock, rfl, rfl, hmove.stream, hmove.echoed, hmove.zeroPayload, hmove.bytes⟩

/-- The frame of the next packet is filled in. -/
theorem Matches.fill (h : Matches hfit s u) (hpc : s.client.pc.unsent = false)
    (hfailed : s.client.pc ≠ .failed) {client : WaitState} {sendMonoNs : ℕ}
    (hpc' : client.pc = .send sendMonoNs) :
    Matches hfit (s.resume spec client) { u with client := client } := by
  obtain ⟨todo, sending, hsending, hbytes, howed⟩ := h.bytes
  obtain ⟨rfl, hunsent⟩ := hsending.nil hpc hfailed
  have hframe : fillFrame s.frame (client.header spec sendMonoNs) =
      Packet.wire.encode (client.packet hfit sendMonoNs) := fillFrame_eq_wire hfit h.zeroPayload _ _
  unfold QuicEchoState.resume
  rw [hpc']
  refine ⟨h.clock, rfl, h.got, h.stream, h.echoed, zeroPayload_fillFrame h.zeroPayload _, todo,
    [client.packet hfit sendMonoNs], .inr ⟨sendMonoNs, rfl, ?_, .inl hpc'⟩, ?_, howed⟩
  · dsimp only
    rw [hframe]
    exact Packet.wire_encode_ne_nil _
  · rw [hunsent, List.append_nil, List.append_nil] at hbytes
    dsimp only
    rw [hbytes, hframe, List.flatMap_append, List.flatMap_singleton]

/-- The last bytes of a packet are put into the stream. -/
theorem Matches.written (h : Matches hfit s u) {sendMonoNs : ℕ}
    (hpc : s.client.pc = .send sendMonoNs) : Matches hfit
      { s with
        client := { s.client with pc := .measure sendMonoNs }
        unsent := []
        toServer := s.toServer ++ s.unsent }
      { u with
        client := { s.client with pc := .measure sendMonoNs }
        owed := u.owed ++ (s.client.header spec sendMonoNs).encode } := by
  obtain ⟨todo, sending, hsending, hbytes, howed⟩ := h.bytes
  have hpacket : sending = [s.client.packet hfit sendMonoNs] := by
    rcases hsending with ⟨-, -, hm⟩ | ⟨m, hsending, -, hm | hm⟩
    · rw [hpc] at hm
      cases hm
    · rw [hpc] at hm
      rw [hsending, WaitPc.send.inj hm]
    · rw [hpc] at hm
      cases hm
  subst hpacket
  refine ⟨h.clock, rfl, h.got, h.stream, h.echoed, h.zeroPayload,
    todo ++ [s.client.packet hfit sendMonoNs], [], .inl ⟨rfl, rfl, rfl⟩, ?_, ?_⟩
  · rw [List.append_nil, List.append_nil, ← List.append_assoc]
    exact hbytes
  · rw [howed, List.map_append, List.flatMap_append, List.append_assoc _ _ (DataHeader.encode _)]
    exact congrArg _ (congrArg _ (List.append_nil _).symm)

/-- The write fails. -/
theorem Matches.writeFails (h : Matches hfit s u) {sendMonoNs : ℕ}
    (hpc : s.client.pc = .send sendMonoNs) :
    Matches hfit { s with client := { s.client with pc := .failed } }
      { u with client := { s.client with pc := .failed } } := by
  obtain ⟨todo, sending, hsending, hbytes, howed⟩ := h.bytes
  refine ⟨h.clock, rfl, h.got, h.stream, h.echoed, h.zeroPayload, todo, sending, ?_, hbytes, howed⟩
  rcases hsending with ⟨-, -, hm⟩ | ⟨m, hsending, hunsent, -⟩
  · rw [hpc] at hm
    cases hm
  · exact .inr ⟨m, hsending, hunsent, .inr rfl⟩

/-- Bytes become readable, which `quicSystem` owes. -/
theorem Matches.arrive (h : Matches hfit s u) {n : ℕ} (hn : n ≤ s.toClient.length) :
    n ≤ u.owed.length ∧ Matches hfit
      { s with
        stream := s.stream ++ s.toClient.take n
        toClient := s.toClient.drop n
        echoed := s.echoed + n }
      { u with
        stream := s.stream ++ u.owed.take n
        owed := u.owed.drop n
        echoed := s.echoed + n } := by
  obtain ⟨todo, sending, hsending, hbytes, howed⟩ := h.bytes
  rw [List.append_assoc] at howed
  refine ⟨?_, h.clock, h.client, h.got, ?_, rfl, h.zeroPayload, todo, sending, hsending, hbytes, ?_⟩
  · rw [howed, List.length_append]
    omega
  · dsimp only
    rw [howed, List.take_append_of_le_length hn]
  · dsimp only
    rw [howed, List.drop_append_of_le_length hn, List.append_assoc]

/-! ## Refinement -/

/-- No read fails. If the client completes the write of a packet, then it has read all earlier
echoes. -/
def drained (spec : StreamRunSpec) (s : QuicEchoState) : QuicEchoAction → Bool
  | .write n =>
    if n < s.unsent.length then true
    else s.stream.isEmpty && s.toClient.isEmpty && s.server.left.isEmpty &&
      (s.server.got ++ s.toServer ++ s.unsent).length == dataHeaderSize + spec.payloadBytes.toNat
  | .readFails => false
  | _ => true

variable (hfit) in
/-- `quicSystem` does nothing, or a step that shows the same to the client. -/
def QuicFollows (u : QuicState) (s : QuicEchoState) (a : QuicEchoAction) (s' : QuicEchoState)
    (o : List QuicEchoObs) : Prop :=
  (Matches hfit s' u ∧ o.filterMap QuicEchoObs.client? = []) ∨ ∃ b u',
    (drained spec s a = true → readAll u b = true) ∧
      quicStep spec u b = some (u', o.filterMap QuicEchoObs.client?) ∧ Matches hfit s' u'

/-- Then nothing else is on its way, and nothing is owed. -/
theorem Matches.drained (h : Matches hfit s u) {sendMonoNs n : ℕ}
    (hpc : s.client.pc = .send sendMonoNs) (hn : ¬n < s.unsent.length)
    (hdrained : Ipfusch.drained spec s (.write n) = true) : readAll u .tick = true := by
  obtain ⟨todo, sending, hsending, hbytes, howed⟩ := h.bytes
  rw [Ipfusch.drained, if_neg hn] at hdrained
  simp only [Bool.and_eq_true, List.isEmpty_iff, beq_iff_eq] at hdrained
  obtain ⟨⟨⟨hstream, htoClient⟩, hleft⟩, hlength⟩ := hdrained
  have htodo : todo = [] := by
    rcases hsending with ⟨-, -, hm⟩ | ⟨m, rfl, -, -⟩
    · rw [hpc] at hm
      cases hm
    · have hframe : (Packet.wire.encode (s.client.packet hfit m)).length =
          dataHeaderSize + spec.payloadBytes.toNat := by
        show (DataHeader.encode _ ++ List.replicate _ 0).length = _
        rw [List.length_append, DataHeader.length_encode, List.length_replicate]
      rw [hbytes, List.flatMap_append, List.flatMap_singleton, List.length_append, hframe] at hlength
      cases todo with
      | nil => rfl
      | cons p todo =>
        have hpos := List.length_pos_iff.mpr (Packet.wire_encode_ne_nil p)
        rw [List.flatMap_cons, List.length_append] at hlength
        omega
  unfold readAll
  dsimp only
  rw [h.client, hpc, h.stream, hstream, howed, htodo, htoClient, hleft]
  rfl

theorem Matches.tick (h : Matches hfit s u) {client : WaitState}
    (htick : waitTick spec s.client s.clock = some client) :
    QuicFollows hfit u s .tick (s.resume spec client) [] := by
  have hpc : s.client.pc.unsent = false := by
    cases hpc : s.client.pc <;> first | rfl | simp [waitTick, hpc] at htick
  have hfailed : s.client.pc ≠ .failed := fun hpc => by simp [waitTick, hpc] at htick
  have hstep : quicStep spec u .tick = some ({ u with client := client }, []) := by
    unfold quicStep
    rw [h.client, h.clock]
    dsimp only
    split
    · rename_i m hm
      rw [hm] at hpc
      cases hpc
    · rw [htick]
      rfl
  have hread : readAll u .tick = true := by
    unfold readAll
    dsimp only
    rw [h.client]
    split
    · rename_i m hm
      rw [hm] at hpc
      cases hpc
    · rfl
  refine .inr ⟨.tick, _, fun _ => hread, hstep, ?_⟩
  cases hpc' : client.pc with
  | send m => exact h.fill hpc hfailed hpc'
  | _ =>
    have hresume : s.resume spec client = { s with client := client } := by
      unfold QuicEchoState.resume
      rw [hpc']
    rw [hresume]
    exact h.move hpc hfailed (by rw [hpc']; rfl)

/-- A header that was read ends the wait. -/
theorem unsent_onHeader (spec : StreamRunSpec) (w : WaitState) (sendMonoNs : ℕ) (measured : Bool)
    (ack : List UInt8) (now : ℕ) :
    (onHeader (β := ℕ) spec w sendMonoNs measured ack now).1.pc.unsent = false := by
  unfold onHeader
  split <;> rfl

/-- Each step of the system is one of `quicSystem`, or nothing to the client. -/
theorem Matches.step (h : Matches hfit s u) {a : QuicEchoAction} {s' : QuicEchoState}
    {o : List QuicEchoObs} (hs : quicEchoStep spec s a = some (s', o)) :
    QuicFollows hfit u s a s' o := by
  cases quicEchoStep_move hs with
  | wait n =>
    exact .inr ⟨.wait n, _, fun _ => rfl, rfl, congrArg (· + n) h.clock, h.client, h.got, h.stream,
      h.echoed, h.zeroPayload, h.bytes⟩
  | tick client htick => exact h.tick htick
  | chunk n m hpc hn =>
    obtain ⟨todo, sending, hsending, hbytes, howed⟩ := h.bytes
    refine .inl ⟨⟨h.clock, h.client, h.got, h.stream, h.echoed, h.zeroPayload, todo, sending, ?_,
      ?_, howed⟩, rfl⟩
    · rcases hsending with ⟨-, -, hm⟩ | ⟨m', hsending, -, hm⟩
      · rw [hpc] at hm
        cases hm
      · exact .inr ⟨m', hsending, List.ne_nil_of_length_pos (by simpa using hn), hm⟩
    · rw [← hbytes]
      simp
  | written n m hpc hn =>
    refine .inr ⟨.tick, _, h.drained hpc hn, ?_, h.written hpc⟩
    unfold quicStep
    simp only [h.client, h.clock, hpc]
    rfl
  | writeFails m hpc =>
    refine .inr ⟨.sendFails, _, fun _ => rfl, ?_, h.writeFails hpc⟩
    unfold quicStep
    simp only [h.client, hpc]
    rfl
  | serverRead n e o he =>
    refine .inl ⟨?_, filterMap_client_server o⟩
    cases he with
    | read _ hgot hleft => exact h.moved (by simp [hgot]) (by simp [hleft, bytesWritten])
  | server a b e o ha he =>
    refine .inl ⟨h.onServer (fun chunk hb => ?_) he, filterMap_client_server o⟩
    rw [hb] at ha
    cases a <;> cases ha
  | arrive n hn =>
    obtain ⟨howed, hmatches⟩ := h.arrive hn
    refine .inr ⟨.arrive n, _, fun _ => rfl, ?_, hmatches⟩
    unfold quicStep
    simp only [if_pos howed, h.stream, h.echoed, h.clock]
    rfl
  | read n m b d hpc hn =>
    refine .inr ⟨.read n, { u with got := s.got ++ s.stream.take n, stream := s.stream.drop n },
      fun _ => rfl, ?_, h.clock, h.client, rfl, rfl, h.echoed, h.zeroPayload, h.bytes⟩
    unfold quicStep
    simp only [h.client, h.got, h.stream, hpc, if_pos hn]
    rfl
  | readDone m b d hpc hlen =>
    refine .inr ⟨.readDone, _, fun _ => rfl, ?_,
      h.waited hpc (unsent_onHeader spec s.client m b s.got s.clock)⟩
    unfold quicStep
    simp only [h.client, h.got, h.clock, hpc, if_pos hlen, filterMap_client]
  | lost a m b d hpc hlen ha =>
    rcases ha with rfl | ⟨rfl, hready⟩
    · refine .inr ⟨.readFails, _, fun h => absurd h Bool.false_ne_true, ?_, h.waited hpc rfl⟩
      unfold quicStep
      simp only [h.client, h.got, hpc, if_pos hlen]
      rfl
    · refine .inr ⟨.elapsed, _, fun _ => rfl, ?_, h.waited hpc rfl⟩
      unfold quicStep
      simp only [h.client, h.got, h.stream, h.clock, hpc, if_pos (And.intro hlen hready)]
      rfl

end Refinement

/-- Every run of the client with the server's loop over the two streams of bytes is, to the client,
a run of `quicSystem`. -/
theorem quicEcho_refines {spec : StreamRunSpec} (hfit : spec.payloadBytes.toNat < 2 ^ 32)
    {start : ℕ} {t : List QuicEchoObs} {s : QuicEchoState} (h : (quicEcho spec start).Reach t s) :
    ∃ u, (quicSystem spec start).Reach (t.filterMap QuicEchoObs.client?) u ∧ Matches hfit s u := by
  obtain ⟨u, hu, hmatches⟩ := (h.reachWhile fun _ _ => trivial).relate (P := fun _ _ => True)
    (Q := fun _ _ => True) (N := quicSystem spec start) (Matches hfit) QuicEchoObs.client?
    (matches_init hfit start) fun hm _ hs => (hm.step hs).imp_right
      fun ⟨b, u', _, hstep, hm'⟩ => ⟨b, u', trivial, hstep, hm'⟩
  exact ⟨u, hu.reach, hmatches⟩

/-- In every run with the server's loop in which no read fails, and the client completes the write
of a packet only when it has read all earlier echoes, it decodes each header, and reports a packet
as lost only if not all bytes of its echo became readable before the timeout, counted from its send,
was over. -/
theorem quicEcho_correct {spec : StreamRunSpec} (hfit : spec.payloadBytes.toNat < 2 ^ 32)
    {start : ℕ} {t : List QuicEchoObs} {s : QuicEchoState}
    (h : (quicEcho spec start).ReachWhile (fun s a => drained spec s a = true) t s) :
    QuicCorrect spec (t.filterMap QuicEchoObs.client?) := by
  obtain ⟨u, hu, -⟩ := h.relate (Q := fun u b => readAll u b = true) (N := quicSystem spec start)
    (Matches hfit) QuicEchoObs.client? (matches_init hfit start) fun hm hd hs =>
      (hm.step hs).imp_right fun ⟨b, u', hread, hstep, hm'⟩ => ⟨b, u', hread hd, hstep, hm'⟩
  have haligned : QuicAligned spec (t.filterMap QuicEchoObs.client?) u :=
    hu.invariant (quicAligned_init spec start) fun ha hread hstep => quicAligned_step ha hread hstep
  exact ⟨haligned.decoded, haligned.real⟩

/-- A stream with payloads of one byte. -/
def quicByteSpec : StreamRunSpec :=
  { quicSpec with payloadBytes := 1 }

/-- The first packet is written, read and echoed in chunks, the second one is read too late. -/
def lateServer : List QuicEchoAction :=
  [.replicate 4 .tick, [.write 20, .serverRead 20, .write 21, .tick, .tick, .serverRead 20,
      .serverNext, .serverRead 1, .serverNext, .serverWrite 15, .arrive 15, .read 15, .serverWrite 25,
      .serverNext, .wait 1, .arrive 25, .read 25, .readDone],
    .replicate 3 .tick, [.write 41, .tick, .tick, .wait 5, .elapsed, .serverRead 40, .serverNext,
      .serverRead 1]].flatten

theorem lateServer_exec : ((quicEcho quicByteSpec 0).execWhile
    (fun s a => drained quicByteSpec s a = true) (quicEcho quicByteSpec 0).init lateServer).map
      (fun r => r.2.filterMap QuicEchoObs.client?) = some [.sent 1 0, .arrived 15 0, .arrived 40 1,
        .event ⟨0, 1, 1, 0, some 1, true⟩, .sent 2 1, .event ⟨0, 2, 1, 1, none, true⟩] := by
  decide +kernel

theorem quicEcho_correct_lateServer : ∃ t s, (quicEcho quicByteSpec 0).ReachWhile
    (fun s a => drained quicByteSpec s a = true) t s ∧
      .event ⟨0, 2, 1, 1, none, true⟩ ∈ t.filterMap QuicEchoObs.client? ∧
      QuicCorrect quicByteSpec (t.filterMap QuicEchoObs.client?) := by
  obtain ⟨⟨s, t⟩, hexec, hshow⟩ := Option.map_eq_some_iff.mp lateServer_exec
  have hreach := Machine.ReachWhile.start.execWhile hexec
  refine ⟨_, s, hreach, ?_, quicEcho_correct (by decide) hreach⟩
  rw [List.nil_append, show t.filterMap QuicEchoObs.client? = _ from hshow]
  simp

end Ipfusch
