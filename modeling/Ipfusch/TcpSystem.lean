import Ipfusch.EchoLoop
import Ipfusch.Framing
import Ipfusch.Statistics
import Ipfusch.TcpStream

/-!
# The TCP client and the server's data loop

`tcpSystem` composes the sender loop and the reader task of `run_stream_tcp` with the data
loop of `handle_tcp_connection`. The three run concurrently, connected by two byte streams
that lose and reorder nothing : `write_all` puts a frame into the stream in chunks, the
server reads and writes in chunks, and the reader task fills its buffer in chunks.

A run of the system is a run of `tcpStream` (`client_reach`) and a run of `echoLoop`
(`server_reach`). `Linked` is the invariant of the two byte streams : behind what the other
side has read, each holds the bytes of the packets, or echoes, that are still to be read.
`tcpSystem_inOrder` is what follows for the acknowledgements and what the engine counts.
-/

namespace Ipfusch

/-- The client, the server, and the streams between them. -/
structure TcpSystemState where
  client : TcpState
  frame : List UInt8
  /-- The bytes of the frame that `write_all` has not put into the stream. -/
  unsent : List UInt8
  toServer : List UInt8
  server : EchoPc
  toClient : List UInt8
  /-- The part of the reader task's buffer that is filled. -/
  ack : List UInt8
  /-- The reader task left its loop. -/
  readerDone : Bool

/-- What happens in a run. -/
inductive TcpSystemObs
  | client (o : TcpObs)
  | server (o : EchoObs)

/-- What can come next. -/
inductive TcpSystemAction
  /-- A step of the sender loop. -/
  | client (a : TcpAction)
  /-- `write_all` puts `n` bytes into the stream. -/
  | send (n : ℕ)
  /-- The server reads `n` bytes. -/
  | serverRead (n : ℕ)
  /-- The server writes `n` bytes. -/
  | serverWrite (n : ℕ)
  /-- The server's read or write is complete. -/
  | serverNext
  /-- The server's read comes to the end of the stream. -/
  | serverEof
  /-- The reader task reads `n` bytes. -/
  | readerRead (n : ℕ)
  /-- The reader task's read is complete, with the clock at `now`. -/
  | readerNext (now : ℕ)

/-- The client closed its side. -/
def Pc.ended : Pc → Bool
  | .done | .failed _ | .panicked => true
  | _ => false

/-- The steps that the sender loop can take by itself : acknowledgements come from the reader
task, and a write is complete when nothing is left to send. -/
def TcpSystemState.allows (s : TcpSystemState) : TcpAction → Bool
  | .deliver _ _ => false
  | .tick _ =>
    match s.client.pc with
    | .write _ => s.unsent.isEmpty
    | _ => true
  | _ => true

/-- The system after a step of the sender loop. The step into a write fills in the frame. -/
def TcpSystemState.resume (spec : StreamRunSpec) (s : TcpSystemState) (client : TcpState) :
    TcpSystemState :=
  match s.client.pc, client.pc with
  | .stamp, .write sendMonoNs =>
    let frame := fillFrame s.frame
      (packetHeader spec (UInt64.ofNat client.seq) (UInt64.ofNat sendMonoNs))
    { s with client := client, frame := frame, unsent := frame }
  | _, _ => { s with client := client }

/-- The system after a step of the server. -/
def onServer (s : TcpSystemState) (a : EchoAction) :
    Option (TcpSystemState × List TcpSystemObs) :=
  (echoStep s.server a).map fun r =>
    ({ s with server := r.1, toClient := s.toClient ++ bytesWritten r.2 }, r.2.map .server)

/-- The reader task is in its loop. It leaves it when it cannot decode a header, and is aborted when
`run_stream_tcp` returns `Ok`. -/
def TcpSystemState.reads (s : TcpSystemState) : Prop :=
  s.readerDone = false ∧ s.client.pc ≠ .done

instance (s : TcpSystemState) : Decidable s.reads :=
  inferInstanceAs (Decidable (_ ∧ _))

/-- One step of the system. -/
def tcpSystemStep (spec : StreamRunSpec) (start : ℕ) (s : TcpSystemState) :
    TcpSystemAction → Option (TcpSystemState × List TcpSystemObs)
  | .client a =>
    if s.allows a then
      (tcpStep spec start s.client a).map fun r => (s.resume spec r.1, r.2.map .client)
    else none
  | .send n =>
    match s.client.pc with
    | .write _ =>
      if n ≤ s.unsent.length then
        some ({ s with unsent := s.unsent.drop n, toServer := s.toServer ++ s.unsent.take n }, [])
      else none
    | _ => none
  | .serverRead n =>
    if n ≤ s.toServer.length then
      onServer { s with toServer := s.toServer.drop n } (.read (s.toServer.take n))
    else none
  | .serverWrite n => onServer s (.write n)
  | .serverNext => onServer s .next
  | .serverEof => if s.client.pc.ended ∧ s.toServer = [] then onServer s .eof else none
  | .readerRead n =>
    if s.reads ∧ n ≤ dataHeaderSize - s.ack.length ∧ n ≤ s.toClient.length then
      some ({ s with ack := s.ack ++ s.toClient.take n, toClient := s.toClient.drop n }, [])
    else none
  | .readerNext now =>
    if s.reads ∧ s.ack.length = dataHeaderSize then
      match DataHeader.decode s.ack with
      | .ok header =>
        (tcpStep spec start s.client (.deliver header.seq.toNat now)).map fun r =>
          ({ s with client := r.1, ack := [] }, r.2.map .client)
      | .error _ => some ({ s with readerDone := true }, [])
    else none

/-- The data phase of a TCP stream, from its start. -/
def tcpSystem (spec : StreamRunSpec) (start nextSend : ℕ) :
    Machine TcpSystemState TcpSystemAction TcpSystemObs where
  init :=
    { client := (tcpStream spec start nextSend).init
      frame := List.replicate (dataHeaderSize + spec.payloadBytes.toNat) 0
      unsent := []
      toServer := []
      server := echoLoop.init
      toClient := []
      ack := []
      readerDone := false }
  step := tcpSystemStep spec start

/-! ## The parties of a run -/

/-- What the client shows. -/
def TcpSystemObs.client? : TcpSystemObs → Option TcpObs
  | .client o => some o
  | .server _ => none

/-- What the server shows. -/
def TcpSystemObs.server? : TcpSystemObs → Option EchoObs
  | .client _ => none
  | .server o => some o

/-- The client's part of a run. -/
def clientTrace (t : List TcpSystemObs) : List TcpObs :=
  t.filterMap TcpSystemObs.client?

/-- The server's part of a run. -/
def serverTrace (t : List TcpSystemObs) : List EchoObs :=
  t.filterMap TcpSystemObs.server?

section Traces

variable (t : List TcpSystemObs) (o : List TcpObs) (o' : List EchoObs)

@[simp] theorem clientTrace_append_client :
    clientTrace (t ++ o.map .client) = clientTrace t ++ o := by
  simp [clientTrace, List.filterMap_map, Function.comp_def, TcpSystemObs.client?]

@[simp] theorem clientTrace_append_server :
    clientTrace (t ++ o'.map .server) = clientTrace t := by
  simp [clientTrace, List.filterMap_map, Function.comp_def, TcpSystemObs.client?]

@[simp] theorem serverTrace_append_client :
    serverTrace (t ++ o.map .client) = serverTrace t := by
  simp [serverTrace, List.filterMap_map, Function.comp_def, TcpSystemObs.server?]

@[simp] theorem serverTrace_append_server :
    serverTrace (t ++ o'.map .server) = serverTrace t ++ o' := by
  simp [serverTrace, List.filterMap_map, Function.comp_def, TcpSystemObs.server?]

end Traces

/-- What a step of the system does. -/
inductive TcpSystemEffect (spec : StreamRunSpec) (start : ℕ) (s : TcpSystemState) :
    TcpSystemState → List TcpSystemObs → Prop
  | client (a : TcpAction) (c : TcpState) (o : List TcpObs) (hallow : s.allows a = true)
      (hstep : tcpStep spec start s.client a = some (c, o)) :
      TcpSystemEffect spec start s (s.resume spec c) (o.map .client)
  | send (sendMonoNs : ℕ) (chunk rest : List UInt8) (hpc : s.client.pc = .write sendMonoNs)
      (hunsent : s.unsent = chunk ++ rest) :
      TcpSystemEffect spec start s { s with unsent := rest, toServer := s.toServer ++ chunk } []
  | serverRead (chunk rest : List UInt8) (e : EchoPc) (o : List EchoObs)
      (htoServer : s.toServer = chunk ++ rest)
      (hstep : echoStep s.server (.read chunk) = some (e, o)) :
      TcpSystemEffect spec start s { s with
        server := e, toServer := rest, toClient := s.toClient ++ bytesWritten o } (o.map .server)
  | server (a : EchoAction) (e : EchoPc) (o : List EchoObs) (ha : ∀ chunk, a ≠ .read chunk)
      (hstep : echoStep s.server a = some (e, o)) :
      TcpSystemEffect spec start s { s with
        server := e, toClient := s.toClient ++ bytesWritten o } (o.map .server)
  | readerRead (chunk rest : List UInt8) (htoClient : s.toClient = chunk ++ rest) :
      TcpSystemEffect spec start s { s with ack := s.ack ++ chunk, toClient := rest } []
  | deliver (header : DataHeader) (now : ℕ) (hack : DataHeader.decode s.ack = .ok header) :
      TcpSystemEffect spec start s { s with
        client := { s.client with acks := s.client.acks ++ [(header.seq.toNat, now)] }, ack := [] }
        [.client (.delivered header.seq.toNat now)]
  | readerDone : TcpSystemEffect spec start s { s with readerDone := true } []

theorem onServer_eq_some {s s' : TcpSystemState} {a : EchoAction} {o : List TcpSystemObs}
    (h : onServer s a = some (s', o)) : ∃ e o', echoStep s.server a = some (e, o') ∧
      s' = { s with server := e, toClient := s.toClient ++ bytesWritten o' } ∧
      o = o'.map .server := by
  unfold onServer at h
  rw [Option.map_eq_some_iff] at h
  obtain ⟨⟨e, o'⟩, hstep, h⟩ := h
  obtain ⟨rfl, rfl⟩ := Prod.mk.inj h
  exact ⟨e, o', hstep, rfl, rfl⟩

theorem tcpSystemStep_effect {spec : StreamRunSpec} {start : ℕ} {s s' : TcpSystemState}
    {a : TcpSystemAction} {o : List TcpSystemObs}
    (h : tcpSystemStep spec start s a = some (s', o)) : TcpSystemEffect spec start s s' o := by
  unfold tcpSystemStep at h
  cases a with
  | client a =>
    dsimp only at h
    split_ifs at h with hallow
    rw [Option.map_eq_some_iff] at h
    obtain ⟨⟨c, o'⟩, hstep, h⟩ := h
    obtain ⟨rfl, rfl⟩ := Prod.mk.inj h
    exact .client a c o' hallow hstep
  | send n =>
    dsimp only at h
    split at h
    · rename_i sendMonoNs hpc
      split_ifs at h
      obtain ⟨rfl, rfl⟩ := Prod.mk.inj (Option.some.inj h)
      exact .send sendMonoNs _ _ hpc (List.take_append_drop n s.unsent).symm
    · cases h
  | serverRead n =>
    dsimp only at h
    split_ifs at h
    obtain ⟨e, o', hstep, rfl, rfl⟩ := onServer_eq_some h
    exact .serverRead _ _ e o' (List.take_append_drop n s.toServer).symm hstep
  | serverWrite n =>
    obtain ⟨e, o', hstep, rfl, rfl⟩ := onServer_eq_some h
    exact .server (.write n) e o' (fun chunk => nofun) hstep
  | serverNext =>
    obtain ⟨e, o', hstep, rfl, rfl⟩ := onServer_eq_some h
    exact .server .next e o' (fun chunk => nofun) hstep
  | serverEof =>
    dsimp only at h
    split_ifs at h
    obtain ⟨e, o', hstep, rfl, rfl⟩ := onServer_eq_some h
    exact .server .eof e o' (fun chunk => nofun) hstep
  | readerRead n =>
    dsimp only at h
    split_ifs at h
    obtain ⟨rfl, rfl⟩ := Prod.mk.inj (Option.some.inj h)
    exact .readerRead _ _ (List.take_append_drop n s.toClient).symm
  | readerNext now =>
    dsimp only at h
    split_ifs at h
    split at h
    · rename_i header hdecode
      rw [Option.map_eq_some_iff] at h
      obtain ⟨⟨c, o'⟩, hstep, h⟩ := h
      obtain ⟨rfl, rfl⟩ := Prod.mk.inj (Option.some.inj hstep)
      obtain ⟨rfl, rfl⟩ := Prod.mk.inj h
      exact .deliver header now hdecode
    · obtain ⟨rfl, rfl⟩ := Prod.mk.inj (Option.some.inj h)
      exact .readerDone

@[simp] theorem TcpSystemState.client_resume (spec : StreamRunSpec) (s : TcpSystemState)
    (c : TcpState) : (s.resume spec c).client = c := by
  unfold TcpSystemState.resume
  split <;> rfl

@[simp] theorem TcpSystemState.server_resume (spec : StreamRunSpec) (s : TcpSystemState)
    (c : TcpState) : (s.resume spec c).server = s.server := by
  unfold TcpSystemState.resume
  split <;> rfl

/-- A run of the system is a run of the client. -/
theorem client_reach {spec : StreamRunSpec} {start nextSend : ℕ} {t : List TcpSystemObs}
    {s : TcpSystemState} (h : (tcpSystem spec start nextSend).Reach t s) :
    (tcpStream spec start nextSend).Reach (clientTrace t) s.client := by
  refine h.project (N := tcpStream spec start nextSend) TcpSystemState.client TcpSystemObs.client?
    rfl fun {t s a s' o} _ hstep => ?_
  have hclient := clientTrace_append_client []
  have hserver := clientTrace_append_server []
  simp only [List.nil_append] at hclient hserver
  cases tcpSystemStep_effect hstep with
  | client a c o _ hc =>
    refine Or.inr ⟨a, ?_⟩
    rw [TcpSystemState.client_resume]
    exact hc.trans (congrArg (fun o => some (c, o)) (hclient o).symm)
  | send _ _ _ _ _ | readerRead _ _ _ | readerDone => exact Or.inl ⟨rfl, rfl⟩
  | serverRead _ _ _ o _ _ | server _ _ o _ _ => exact Or.inl ⟨rfl, hserver o⟩
  | deliver header now _ => exact Or.inr ⟨.deliver header.seq.toNat now, rfl⟩

/-- A run of the system is a run of the server. -/
theorem server_reach {spec : StreamRunSpec} {start nextSend : ℕ} {t : List TcpSystemObs}
    {s : TcpSystemState} (h : (tcpSystem spec start nextSend).Reach t s) :
    echoLoop.Reach (serverTrace t) s.server := by
  refine h.project (N := echoLoop) TcpSystemState.server TcpSystemObs.server? rfl
    fun {t s a s' o} _ hstep => ?_
  have hclient := serverTrace_append_client []
  have hserver := serverTrace_append_server []
  simp only [List.nil_append] at hclient hserver
  cases tcpSystemStep_effect hstep with
  | client a c o _ _ => exact Or.inl ⟨TcpSystemState.server_resume _ _ _, hclient o⟩
  | send _ _ _ _ _ | readerRead _ _ _ | readerDone | deliver _ _ _ => exact Or.inl ⟨rfl, rfl⟩
  | serverRead chunk _ e o _ he =>
    exact Or.inr ⟨.read chunk, he.trans (congrArg (fun o => some (e, o)) (hserver o).symm)⟩
  | server a e o _ he =>
    exact Or.inr ⟨a, he.trans (congrArg (fun o => some (e, o)) (hserver o).symm)⟩

/-! ## The byte streams -/

/-- The packet of a frame that was written, from its number and time stamp. -/
def writtenPacket {spec : StreamRunSpec} (hfit : spec.payloadBytes.toNat < 2 ^ 32) (k : ℕ × ℕ) :
    Packet :=
  framePacket hfit (UInt64.ofNat k.1) (UInt64.ofNat k.2)

/-- The number in the header of a packet. -/
def Packet.seq (p : Packet) : ℕ :=
  p.header.seq.toNat

/-- The server has read the front of what the client writes, and the rest is on its way. -/
def ToServer {spec : StreamRunSpec} (hfit : spec.payloadBytes.toNat < 2 ^ 32)
    (t : List TcpSystemObs) (s : TcpSystemState) : Prop :=
  ∃ todo, (written (clientTrace t)).map (writtenPacket hfit) = served (serverTrace t) ++ todo ∧
    s.server.got ++ s.toServer ++ s.unsent = todo.flatMap Packet.wire.encode

/-- The reader task has put the numbers of the first packets served into the channel, and the
echoes of the other ones are on their way. -/
def ToClient (t : List TcpSystemObs) (s : TcpSystemState) : Prop :=
  ∃ acked todo, served (serverTrace t) = acked ++ todo ∧
    (acksDelivered (clientTrace t)).map Prod.fst = acked.map Packet.seq ∧
    s.ack ++ s.toClient ++ s.server.left =
      (todo.map Packet.header).flatMap DataHeader.wire.encode

/-- The invariant of the byte streams. -/
structure Linked {spec : StreamRunSpec} (hfit : spec.payloadBytes.toNat < 2 ^ 32)
    (t : List TcpSystemObs) (s : TcpSystemState) : Prop where
  zeroPayload : ZeroPayload spec s.frame
  /-- Only a write that is under way or failed leaves bytes to send. -/
  unsent : s.unsent = [] ∨ ∃ m, s.client.pc = .write m ∨ s.client.pc = .failed m
  toServer : ToServer hfit t s
  toClient : ToClient t s

theorem linked_init {spec : StreamRunSpec} (hfit : spec.payloadBytes.toNat < 2 ^ 32)
    (start nextSend : ℕ) : Linked hfit [] (tcpSystem spec start nextSend).init where
  zeroPayload := by
    show (List.replicate _ 0).drop _ = _
    rw [List.drop_replicate, Nat.add_sub_cancel_left]
  unsent := Or.inl rfl
  toServer := ⟨[], rfl, rfl⟩
  toClient := ⟨[], [], rfl, rfl, rfl⟩

/-- The sender loop leaves a write only when all is sent, or when the write failed. -/
theorem unsent_client {spec : StreamRunSpec} {start : ℕ} {s : TcpSystemState} {a : TcpAction}
    {c : TcpState} {o : List TcpObs}
    (h : s.unsent = [] ∨ ∃ m, s.client.pc = .write m ∨ s.client.pc = .failed m)
    (hallow : s.allows a = true) (hstep : tcpStep spec start s.client a = some (c, o)) :
    s.unsent = [] ∨ ∃ m, c.pc = .write m ∨ c.pc = .failed m := by
  rcases h with h | ⟨m, hpc⟩
  · exact Or.inl h
  · unfold TcpSystemState.allows at hallow
    unfold tcpStep at hstep
    cases a with
    | deliver _ _ => cases hallow
    | tick now =>
      rcases hpc with hpc | hpc
      · simp only [hpc, List.isEmpty_iff] at hallow
        exact Or.inl hallow
      · simp [tcpTick, hpc] at hstep
    | elapsed => rcases hpc with hpc | hpc <;> simp [hpc] at hstep
    | writeFails =>
      rcases hpc with hpc | hpc <;> simp only [hpc, reduceCtorEq, Option.some.injEq] at hstep
      obtain ⟨rfl, -⟩ := Prod.mk.inj hstep
      exact Or.inr ⟨m, Or.inr rfl⟩
    | flush seq => rcases hpc with hpc | hpc <;> simp [hpc] at hstep

theorem resume_of_ne {spec : StreamRunSpec} {s : TcpSystemState} {c : TcpState}
    (h : s.client.pc = .stamp → ∀ now, c.pc ≠ .write now) :
    s.resume spec c = { s with client := c } := by
  unfold TcpSystemState.resume
  split
  · rename_i hstamp hwrite
    exact absurd hwrite (h hstamp _)
  · rfl

/-- A step of the sender loop sends no acknowledgement, and writes at most the next packet. -/
theorem linked_client {spec : StreamRunSpec} {hfit : spec.payloadBytes.toNat < 2 ^ 32}
    {start : ℕ} {t : List TcpSystemObs} {s : TcpSystemState} (h : Linked hfit t s)
    {a : TcpAction} {c : TcpState} {o : List TcpObs} (hallow : s.allows a = true)
    (hstep : tcpStep spec start s.client a = some (c, o)) :
    Linked hfit (t ++ o.map .client) (s.resume spec c) := by
  have heffect := tcpStep_effect hstep fun seq recvMonoNs => by
    rintro rfl
    cases hallow
  have hacks : acksDelivered (clientTrace (t ++ o.map .client)) = acksDelivered (clientTrace t) := by
    rw [clientTrace_append_client, acksDelivered_append, heffect.acksDelivered_eq, List.append_nil]
  obtain ⟨todo, hwritten, hbytes⟩ := h.toServer
  have htoClient : ∀ s' : TcpSystemState, s'.ack = s.ack → s'.toClient = s.toClient →
      s'.server = s.server → ToClient (t ++ o.map .client) s' := by
    intro s' hack htoClient hserver
    obtain ⟨acked, todo, hserved, hacked, hbytes⟩ := h.toClient
    refine ⟨acked, todo, ?_, ?_, ?_⟩
    · rw [serverTrace_append_client]
      exact hserved
    · rw [hacks]
      exact hacked
    · rw [hack, htoClient, hserver]
      exact hbytes
  rcases heffect.written_cases with ⟨now, hpc, rfl, rfl⟩ | ⟨hnone, hne⟩
  · have hempty : s.unsent = [] := by
      refine h.unsent.resolve_right ?_
      rintro ⟨m, hm | hm⟩ <;> cases hpc.symm.trans hm
    have hresume : s.resume spec { s.client with pc := .write now, seq := s.client.seq + 1 } =
        { s with
          client := { s.client with pc := .write now, seq := s.client.seq + 1 }
          frame := fillFrame s.frame (packetHeader spec (.ofNat (s.client.seq + 1)) (.ofNat now))
          unsent := fillFrame s.frame
            (packetHeader spec (.ofNat (s.client.seq + 1)) (.ofNat now)) } := by
      unfold TcpSystemState.resume
      rw [hpc]
    rw [hresume]
    refine ⟨zeroPayload_fillFrame h.zeroPayload _, Or.inr ⟨now, Or.inl rfl⟩,
      ⟨todo ++ [writtenPacket hfit (s.client.seq + 1, now)], ?_, ?_⟩, htoClient _ rfl rfl rfl⟩
    · rw [clientTrace_append_client, serverTrace_append_client, written_append, List.map_append,
        hwritten, List.append_assoc]
      rfl
    · rw [hempty, List.append_nil] at hbytes
      rw [List.flatMap_append, ← hbytes, fillFrame_eq_wire hfit h.zeroPayload]
      simp [writtenPacket]
  · have hunsent := unsent_client h.unsent hallow hstep
    rw [resume_of_ne hne]
    refine ⟨h.zeroPayload, hunsent, ⟨todo, ?_, hbytes⟩, htoClient _ rfl rfl rfl⟩
    rw [clientTrace_append_client, serverTrace_append_client, written_append, hnone,
      List.append_nil]
    exact hwritten

/-- A step of the server that reads no packet to its end keeps the streams, if no byte is lost on
the way. -/
theorem linked_unserved {spec : StreamRunSpec} {hfit : spec.payloadBytes.toNat < 2 ^ 32}
    {t : List TcpSystemObs} {s : TcpSystemState} (h : Linked hfit t s) {e : EchoPc}
    {o : List EchoObs} {toServer toClient : List UInt8} (hserved : served o = [])
    (hread : e.got ++ toServer = s.server.got ++ s.toServer)
    (hwrite : toClient ++ e.left = s.toClient ++ s.server.left) : Linked hfit (t ++ o.map .server)
      { s with server := e, toServer := toServer, toClient := toClient } := by
  have hsame : served (serverTrace (t ++ o.map .server)) = served (serverTrace t) := by
    rw [serverTrace_append_server, served, List.filterMap_append]
    exact (congrArg _ hserved).trans (List.append_nil _)
  obtain ⟨todo, hwritten, hbytes⟩ := h.toServer
  obtain ⟨acked, todo', hsplit, hacked, hbytes'⟩ := h.toClient
  refine ⟨h.zeroPayload, h.unsent, ⟨todo, ?_, ?_⟩, ⟨acked, todo', ?_, ?_, ?_⟩⟩
  · rw [clientTrace_append_server, hsame]
    exact hwritten
  · rw [hread]
    exact hbytes
  · rw [hsame]
    exact hsplit
  · rw [clientTrace_append_server]
    exact hacked
  · rw [List.append_assoc, hwrite, ← List.append_assoc]
    exact hbytes'

/-- A step of the server other than a read keeps the streams. -/
theorem linked_server {spec : StreamRunSpec} {hfit : spec.payloadBytes.toNat < 2 ^ 32}
    {t : List TcpSystemObs} {s : TcpSystemState} (h : Linked hfit t s) {a : EchoAction}
    {e : EchoPc} {o : List EchoObs} (ha : ∀ chunk, a ≠ .read chunk)
    (he : EchoEffect s.server e a o) : Linked hfit (t ++ o.map .server)
      { s with server := e, toClient := s.toClient ++ bytesWritten o } := by
  cases he with
  | read chunk _ _ => exact absurd rfl (ha chunk)
  | moved hgot hleft | closed hgot hleft =>
    exact linked_unserved h rfl (by rw [hgot]) (by simp [hleft, bytesWritten])
  | wrote n chunk hgot hleft =>
    exact linked_unserved h rfl (by rw [hgot]) (by simp [hleft, bytesWritten])
  | served p hgot hleft hgot' hleft' =>
    obtain ⟨todo, hwritten, hbytes⟩ := h.toServer
    obtain ⟨acked, todo', hserved, hacked, hbytes'⟩ := h.toClient
    have hmore : served (serverTrace t ++ [.served p]) = served (serverTrace t) ++ [p] := by
      simp [served]
    rw [hgot, List.append_assoc] at hbytes
    obtain ⟨rest, rfl, hrest⟩ := Packet.wire.flatMap_eq_append Packet.wire_encode_ne_nil
      trivial (fun _ _ => trivial) hbytes
    refine ⟨h.zeroPayload, h.unsent, ⟨rest, ?_, ?_⟩, ⟨acked, todo' ++ [p], ?_, ?_, ?_⟩⟩
    · rw [clientTrace_append_server, serverTrace_append_server, hmore, hwritten]
      simp
    · rw [hgot', List.nil_append]
      exact hrest
    · rw [serverTrace_append_server, hmore, hserved, List.append_assoc]
    · rw [clientTrace_append_server]
      exact hacked
    · rw [hleft, List.append_nil] at hbytes'
      rw [List.map_append, List.flatMap_append, ← hbytes', hleft', DataHeader.encode_eq_wire]
      simp [bytesWritten]

/-- Each step keeps the streams. -/
theorem linked_step {spec : StreamRunSpec} {hfit : spec.payloadBytes.toNat < 2 ^ 32} {start : ℕ}
    {t : List TcpSystemObs} {s s' : TcpSystemState} {o : List TcpSystemObs} (h : Linked hfit t s)
    (he : TcpSystemEffect spec start s s' o) : Linked hfit (t ++ o) s' := by
  cases he with
  | client a c o hallow hstep => exact linked_client h hallow hstep
  | server a e o ha hstep => exact linked_server h ha (echoStep_effect hstep)
  | send sendMonoNs chunk rest hpc hunsent =>
    obtain ⟨todo, hwritten, hbytes⟩ := h.toServer
    rw [List.append_nil]
    refine ⟨h.zeroPayload, Or.inr ⟨sendMonoNs, Or.inl hpc⟩, ⟨todo, hwritten, ?_⟩, h.toClient⟩
    rw [← hbytes, hunsent]
    simp
  | serverRead chunk rest e o htoServer hstep =>
    cases echoStep_effect hstep with
    | read _ hgot hleft =>
      exact linked_unserved h rfl (by simp [hgot, htoServer]) (by simp [hleft, bytesWritten])
  | readerRead chunk rest htoClient =>
    obtain ⟨acked, todo, hserved, hacked, hbytes⟩ := h.toClient
    rw [List.append_nil]
    refine ⟨h.zeroPayload, h.unsent, h.toServer, ⟨acked, todo, hserved, hacked, ?_⟩⟩
    rw [← hbytes, htoClient]
    simp
  | deliver header now hack =>
    obtain ⟨acked, todo, hserved, hacked, hbytes⟩ := h.toClient
    have hackBytes : s.ack = DataHeader.wire.encode header := by
      rw [(DataHeader.decode_eq_ok_iff.mp hack).1, DataHeader.encode_eq_wire]
    rw [hackBytes, List.append_assoc] at hbytes
    obtain ⟨headers, hheaders, hrest⟩ := DataHeader.wire.flatMap_eq_append
      DataHeader.wire_encode_ne_nil (DataHeader.wire_fits _)
      (fun _ _ => DataHeader.wire_fits _) hbytes
    obtain ⟨p, todo, rfl, rfl, rfl⟩ := List.map_eq_cons_iff.mp hheaders
    have htrace : clientTrace (t ++ [.client (.delivered p.header.seq.toNat now)]) =
        clientTrace t ++ [.delivered p.header.seq.toNat now] :=
      clientTrace_append_client t [.delivered p.header.seq.toNat now]
    have hserver : serverTrace (t ++ [.client (.delivered p.header.seq.toNat now)]) =
        serverTrace t := serverTrace_append_client t [.delivered p.header.seq.toNat now]
    refine ⟨h.zeroPayload, h.unsent, ?_, ⟨acked ++ [p], todo, ?_, ?_, ?_⟩⟩
    · obtain ⟨todo, hwritten, hbytes⟩ := h.toServer
      refine ⟨todo, ?_, hbytes⟩
      rw [htrace, hserver, written_append, ← hwritten]
      exact congrArg _ (List.append_nil _)
    · rw [hserver, hserved, List.append_assoc]
      rfl
    · rw [htrace, acksDelivered_append, List.map_append, List.map_append, hacked]
      rfl
    · rw [List.nil_append]
      exact hrest
  | readerDone =>
    rw [List.append_nil]
    exact ⟨h.zeroPayload, h.unsent, h.toServer, h.toClient⟩

theorem linked_reach {spec : StreamRunSpec} (hfit : spec.payloadBytes.toNat < 2 ^ 32)
    {start nextSend : ℕ} {t : List TcpSystemObs} {s : TcpSystemState}
    (h : (tcpSystem spec start nextSend).Reach t s) : Linked hfit t s :=
  h.invariant (linked_init hfit start nextSend) fun _ hlinked hstep =>
    linked_step hlinked (tcpSystemStep_effect hstep)

/-! ## The order of the acknowledgements -/

/-- A front of the numbers from 1 is the numbers from 1. -/
theorem eq_range'_of_prefix {l : List ℕ} {n : ℕ} (h : l <+: List.range' 1 n) :
    l = List.range' 1 l.length ∧ l.length ≤ n := by
  obtain ⟨l', hl⟩ := h
  obtain ⟨k, hk, rfl, -⟩ := List.range'_eq_append_iff.mp hl.symm
  rw [List.length_range']
  exact ⟨rfl, hk⟩

/-- The packets served are the first ones written, so their numbers are the numbers from 1. -/
theorem served_seqs {spec : StreamRunSpec} (hfit : spec.payloadBytes.toNat < 2 ^ 32)
    {start nextSend : ℕ} {t : List TcpSystemObs} {s : TcpSystemState}
    (h : (tcpSystem spec start nextSend).Reach t s) :
    (served (serverTrace t)).map Packet.seq <+: List.range' 1 s.client.seq := by
  have hclient := client_reach h
  have hnumbered := (accounted_reach hclient).numbered
  obtain ⟨todo, hwritten, -⟩ := (linked_reach hfit h).toServer
  have hseqs : ((written (clientTrace t)).map (writtenPacket hfit)).map Packet.seq =
      List.range' 1 s.client.seq := by
    rw [List.map_map, ← hnumbered]
    refine List.map_congr_left fun k hk => UInt64.toNat_ofNat_of_lt' ?_
    have hmem : k.1 ∈ List.range' 1 s.client.seq := hnumbered ▸ List.mem_map_of_mem hk
    have hlt := seq_lt hclient
    rw [List.mem_range'_1] at hmem
    have hsize : UInt64.size = 2 ^ 64 := rfl
    omega
  rw [← hseqs, hwritten, List.map_append]
  exact List.prefix_append _ _

/-- The acknowledgements put into the channel are those of the first packets served. -/
theorem delivered_seqs {spec : StreamRunSpec} (hfit : spec.payloadBytes.toNat < 2 ^ 32)
    {start nextSend : ℕ} {t : List TcpSystemObs} {s : TcpSystemState}
    (h : (tcpSystem spec start nextSend).Reach t s) :
    (acksDelivered (clientTrace t)).map Prod.fst <+: (served (serverTrace t)).map Packet.seq := by
  obtain ⟨acked, todo, hserved, hacked, -⟩ := (linked_reach hfit h).toClient
  rw [hacked, hserved, List.map_append]
  exact List.prefix_append _ _

/-- The next acknowledgement in the channel is that of a packet in `pending`. -/
theorem ack_waits {spec : StreamRunSpec} (hfit : spec.payloadBytes.toNat < 2 ^ 32)
    {start nextSend : ℕ} {t : List TcpSystemObs} {s : TcpSystemState}
    (h : (tcpSystem spec start nextSend).Reach t s) (hloop : s.client.pc.looping = true)
    (hopen : s.client.pc.open = none) {seq recvMonoNs : ℕ} {acks : List (ℕ × ℕ)}
    (hacks : s.client.acks = (seq, recvMonoNs) :: acks) :
    ∃ entry, s.client.pending.lookup seq = some entry := by
  have hacc := accounted_reach (client_reach h)
  have hprefix := (delivered_seqs hfit h).trans (served_seqs hfit h)
  rw [hacc.ordered.channel_eq, hacks, List.map_append, List.map_cons] at hprefix
  have hnodup := hprefix.sublist.nodup List.nodup_range'
  have hwritten : (entered (clientTrace t)).map Prod.fst = List.range' 1 s.client.seq := by
    rw [← hacc.numbered, hacc.ordered.written_eq, TcpState.writing, hopen]
    simp
  refine hacc.lookup_of_entered hloop ?_ ?_
  · rw [hwritten]
    exact hprefix.subset (by simp)
  · rw [List.nodup_middle, List.nodup_cons, List.mem_append] at hnodup
    exact fun hmem => hnodup.1 (Or.inl hmem)

/-- What an event says of an acknowledgement : the number and the receive time. -/
def PacketEvent.acked (event : PacketEvent) : Option (ℕ × ℕ) :=
  event.recvMonoNs.map fun recvMonoNs => (event.seq, recvMonoNs)

/-- Each acknowledgement that is taken is reported : it finds its entry in `pending`. -/
theorem acked_events {spec : StreamRunSpec} (hfit : spec.payloadBytes.toNat < 2 ^ 32)
    {start nextSend : ℕ} {t : List TcpSystemObs} {s : TcpSystemState}
    (h : (tcpSystem spec start nextSend).Reach t s) :
    (events (clientTrace t)).filterMap PacketEvent.acked = acksDequeued (clientTrace t) := by
  refine h.invariant (I := fun t _ => (events (clientTrace t)).filterMap PacketEvent.acked =
    acksDequeued (clientTrace t)) rfl fun {t s a s' o} hr ih hstep => ?_
  have hmore : ∀ o : List TcpObs, (events o).filterMap PacketEvent.acked = acksDequeued o →
      (events (clientTrace t ++ o)).filterMap PacketEvent.acked =
        acksDequeued (clientTrace t ++ o) := by
    intro o ho
    rw [events_append, List.filterMap_append, acksDequeued_append, ih, ho]
  cases tcpSystemStep_effect hstep with
  | send _ _ _ _ _ | readerRead _ _ _ | readerDone => rwa [List.append_nil]
  | serverRead _ _ _ _ _ _ | server _ _ _ _ _ => rwa [clientTrace_append_server]
  | deliver header now _ =>
    exact (clientTrace_append_client t [.delivered header.seq.toNat now]) ▸ hmore _ rfl
  | client a c o hallow hc =>
    rw [clientTrace_append_client]
    refine hmore o ?_
    have hne : ∀ seq recvMonoNs, a ≠ .deliver seq recvMonoNs := by
      rintro seq recvMonoNs rfl
      cases hallow
    cases tcpStep_effect hc hne with
    | move _ _ _ _ _ _ | wrote _ _ _ | entered _ _ _ | flush _ _ _ _ => rfl
    | ack pc c o htake hopen _ hloop _ _ =>
      obtain ⟨seq, recvMonoNs, acks, hacks, ⟨entry, -, -, rfl⟩ | ⟨hnone, -, -⟩⟩ :=
        takeAck_cases htake
      · rfl
      · obtain ⟨entry, hentry⟩ := ack_waits hfit hr hloop hopen hacks
        cases hnone.symm.trans hentry

theorem filterMap_ackedSeq (es : List PacketEvent) :
    es.filterMap PacketEvent.ackedSeq = (es.filterMap PacketEvent.acked).map Prod.fst := by
  rw [List.map_filterMap]
  refine List.filterMap_congr fun e _ => ?_
  rw [PacketEvent.acked, Option.map_map]
  rfl

/-- In every run of the system with payloads whose length fits the header's field, the server
has read exactly the first packets that the client wrote. Each acknowledgement that the client
takes finds its packet in `pending`, and the acknowledged packets are reported in the order in
which they were sent, none that the server has not read. So whatever part of the events the
engine has taken, between those of other streams and its ticks, it counts no packet of the
stream as reordered. -/
theorem tcpSystem_inOrder {spec : StreamRunSpec} (hfit : spec.payloadBytes.toNat < 2 ^ 32)
    {start nextSend : ℕ} {t : List TcpSystemObs} {s : TcpSystemState}
    (h : (tcpSystem spec start nextSend).Reach t s) :
    served (serverTrace t) <+: (written (clientTrace t)).map (writtenPacket hfit) ∧
    (served (serverTrace t)).map Packet.seq = List.range' 1 (served (serverTrace t)).length ∧
    (events (clientTrace t)).filterMap PacketEvent.acked = acksDequeued (clientTrace t) ∧
    (∀ seq ∈ (events (clientTrace t)).filterMap PacketEvent.ackedSeq,
      seq ≤ (served (serverTrace t)).length) ∧
    ((events (clientTrace t)).filterMap PacketEvent.ackedSeq).Pairwise (· < ·) ∧
    ∀ cfg inputs, eventsOf spec.streamId inputs <+: events (clientTrace t) →
      ∀ stats ∈ (runBenchmark cfg inputs).streams, stats.streamId = spec.streamId →
        stats.packetsReordered = 0 := by
  have hserved := eq_range'_of_prefix (served_seqs hfit h)
  rw [List.length_map] at hserved
  have hacked := acked_events hfit h
  have hprefix : (events (clientTrace t)).filterMap PacketEvent.ackedSeq <+:
      List.range' 1 (served (serverTrace t)).length := by
    have hchannel := (accounted_reach (client_reach h)).ordered.channel_eq
    have hdelivered := delivered_seqs hfit h
    rw [hchannel, List.map_append] at hdelivered
    rw [filterMap_ackedSeq, hacked, ← hserved.1]
    exact (List.prefix_append _ _).trans hdelivered
  have hsorted : ((events (clientTrace t)).filterMap PacketEvent.ackedSeq).Pairwise (· < ·) :=
    List.Pairwise.sublist hprefix.sublist List.pairwise_lt_range'
  refine ⟨?_, hserved.1, hacked, fun seq hseq => ?_, hsorted, fun cfg inputs hinputs => ?_⟩
  · obtain ⟨todo, hwritten, -⟩ := (linked_reach hfit h).toServer
    rw [hwritten]
    exact List.prefix_append _ _
  · have hmem := hprefix.subset hseq
    rw [List.mem_range'_1] at hmem
    omega
  · exact packetsReordered_eq_zero cfg
      (hsorted.sublist (List.Sublist.filterMap _ hinputs.sublist))

/-- One packet is written, read, echoed in two chunks and acknowledged. -/
def oneAck : List TcpSystemAction :=
  [.replicate 6 (.client (.tick 1)),
    [.send 41, .serverRead 40, .serverNext, .serverRead 1, .serverNext, .serverWrite 30,
      .readerRead 30, .client (.tick 2), .serverWrite 10, .readerRead 10, .client (.tick 2),
      .readerNext 3, .client (.tick 3), .client (.tick 3)]].flatten

theorem oneAck_exec :
    ((tcpSystem { shortSpec with payloadBytes := 1 } 0 0).exec
      (tcpSystem { shortSpec with payloadBytes := 1 } 0 0).init oneAck).map
        (fun r => ((events (clientTrace r.2)).filterMap PacketEvent.acked,
          (served (serverTrace r.2)).length)) = some ([(1, 3)], 1) := by
  decide

theorem tcpSystem_inOrder_oneAck :
    ∃ t s, (tcpSystem { shortSpec with payloadBytes := 1 } 0 0).Reach t s ∧
      (events (clientTrace t)).filterMap PacketEvent.acked = [(1, 3)] ∧
      (served (serverTrace t)).map Packet.seq = List.range' 1 (served (serverTrace t)).length := by
  obtain ⟨⟨s, t⟩, hexec, hshow⟩ := Option.map_eq_some_iff.mp oneAck_exec
  have hreach := Machine.reach_exec hexec
  refine ⟨t, s, hreach, (Prod.mk.inj hshow).1, ?_⟩
  exact (tcpSystem_inOrder (by decide) hreach).2.1

end Ipfusch
