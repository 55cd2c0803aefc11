import Ipfusch.Machine
import Ipfusch.StopAndWait
import Ipfusch.UdpServer

/-!
# The UDP client and server

`udpSystem` composes `run_stream_udp`, its handshake included, with `run_udp_server` over a
network that may drop, delay, duplicate and reorder datagrams : what was sent once can reach
the other side at any later time, any number of times. The server may serve other peers in
between, and its sends may fail.

The client takes one datagram for each packet it sends, whatever datagram is first in its
socket. `udp_lossIsReal` : if each datagram that the loop takes is an echo of the packet it
has just sent, then each packet reported as lost is lost. `not_lossIsReal_late_echo` : after
one late echo the next packet is reported as lost although its echo arrives at once.
-/

set_option linter.unusedSectionVars false

namespace Ipfusch

open ByteConn

/-- `decode_udp_control` -/
def decodeUdpControl (frame : List UInt8) : Option ControlMessage :=
  if ctrlPrefix <+: frame then ControlMessage.deserialize (frame.drop ctrlPrefix.length) else none

/-- Where the client is. -/
inductive UdpClient
  /-- `socket.send(&frame)` of the `Hello`. -/
  | hello
  /-- The start of the timeout of the handshake. -/
  | arm
  /-- `timeout(spec.timeout, socket.recv(&mut buf))` of the handshake. -/
  | awaitAck (deadline : ℕ)
  /-- `let start = Instant::now()` -/
  | ready
  /-- In the loop. -/
  | data (s : WaitState)
  /-- The handshake returned an error. -/
  | failed
  deriving DecidableEq

/-- What the client shows. What arrives are datagrams. -/
abbrev UdpObs := WaitObs (List UInt8)

/-- The client, the server, and the network between them. -/
structure UdpState (Peer : Type) where
  clock : ℕ
  client : UdpClient
  /-- The datagrams in the client's socket. -/
  socket : List (List UInt8)
  /-- All datagrams the client has sent. -/
  toServer : List (List UInt8)
  authorized : Finset Peer
  /-- The server is in its loop. -/
  serving : Bool
  /-- All datagrams the server has sent to the client. -/
  toClient : List (List UInt8)

/-- What can come next. -/
inductive UdpAction (Peer : Type)
  /-- Time passes. -/
  | wait (n : ℕ)
  /-- The client's next step. -/
  | tick
  /-- The client's send fails. -/
  | sendFails
  /-- The client's `recv` takes the first datagram of the socket. -/
  | recv
  /-- The client's `recv` fails. -/
  | recvFails
  /-- The client's timeout elapses. -/
  | elapsed
  /-- The `i`-th datagram of the client reaches the server, whose answer can be sent or not. -/
  | serve (i : ℕ) (sendOk : Bool)
  /-- A datagram of another peer reaches the server. -/
  | serveOther (peer : Peer) (frame : List UInt8) (sendOk : Bool)
  /-- The `i`-th datagram of the server reaches the client's socket. -/
  | arrive (i : ℕ)

/-- The handshake's answer. -/
def onAck (frame : List UInt8) : UdpClient :=
  match decodeUdpControl (frame.take (4 * 1024)) with
  | none => .failed
  | some ack =>
    match validateAck ack with
    | .ok _ => .ready
    | .error _ => .failed

/-- It does not lead into the loop at once. -/
theorem onAck_ne_data (frame : List UInt8) (w : WaitState) : onAck frame ≠ .data w := by
  unfold onAck
  split
  · simp
  · split <;> simp

/-- The loop after its `recv` took a datagram. The buffer holds no more than a header. -/
def onEcho (spec : StreamRunSpec) (s : WaitState) (sendMonoNs : ℕ) (measured : Bool)
    (frame : List UInt8) (now : ℕ) : WaitState × List UdpObs :=
  let ack := frame.take dataHeaderSize
  if dataHeaderSize ≤ ack.length then onHeader spec s sendMonoNs measured ack now
  else ({ s with pc := .head }, [.event (s.report spec sendMonoNs measured none)])

/-- The datagram of a packet. -/
def packetDatagram (spec : StreamRunSpec) (s : WaitState) (sendMonoNs : ℕ) : List UInt8 :=
  fillFrame (List.replicate (dataHeaderSize + spec.payloadBytes.toNat) 0)
    (s.header spec sendMonoNs)

section System

variable (sha256 : List UInt8 → Digest)

variable {Peer : Type} [DecidableEq Peer]

/-- The client's next step, and the datagram it sends. -/
def udpTick (spec : StreamRunSpec) (now : ℕ) :
    UdpClient → Option (UdpClient × List (List UInt8) × List UdpObs)
  | .hello => some (.arm, [ctrlPrefix ++ (clientHello sha256 spec.streamId spec).serialize], [])
  | .arm => some (.awaitAck (now + spec.timeout), [], [])
  | .ready => some (.data ⟨now, .begin, 0, 0⟩, [], [])
  | .data s =>
    match s.pc with
    | .send sendMonoNs => some (.data { s with pc := .measure sendMonoNs },
        [packetDatagram spec s sendMonoNs], [.sent s.seq now])
    | _ => (waitTick spec s now).map fun s => (.data s, [], [])
  | .awaitAck _ | .failed => none

/-- The server handles a datagram of a peer. Its answers to the client are sent to it. -/
def onServe (token : Option String) (me peer : Peer) (frame : List UInt8) (sendOk : Bool)
    (s : UdpState Peer) : UdpState Peer :=
  let (authorized, reply) :=
    handleDatagram sha256 token s.authorized peer (frame.take (64 * 1024))
  match reply with
  | none => { s with authorized := authorized }
  | some reply =>
    if sendOk then { s with
      authorized := authorized
      toClient := if peer = me then s.toClient ++ [reply.bytes] else s.toClient }
    else { s with authorized := authorized, serving := false }

/-- One step of the system. -/
def udpStep (token : Option String) (spec : StreamRunSpec) (me : Peer) (s : UdpState Peer) :
    UdpAction Peer → Option (UdpState Peer × List UdpObs)
  | .wait n => some ({ s with clock := s.clock + n }, [])
  | .tick => (udpTick sha256 spec s.clock s.client).map fun r =>
      ({ s with client := r.1, toServer := s.toServer ++ r.2.1 }, r.2.2)
  | .sendFails =>
    match s.client with
    | .hello => some ({ s with client := .failed }, [])
    | .data w =>
      match w.pc with
      | .send _ => some ({ s with client := .data { w with pc := .failed } }, [])
      | _ => none
    | _ => none
  | .recv =>
    match s.client, s.socket with
    | .awaitAck _, frame :: socket => some ({ s with client := onAck frame, socket := socket }, [])
    | .data w, frame :: socket =>
      match w.pc with
      | .recv sendMonoNs measured _ =>
        let r := onEcho spec w sendMonoNs measured frame s.clock
        some ({ s with client := .data r.1, socket := socket }, r.2)
      | _ => none
    | _, _ => none
  | .recvFails =>
    match s.client with
    | .awaitAck _ => some ({ s with client := .failed }, [])
    | .data w =>
      match w.pc with
      | .recv sendMonoNs measured _ => some ({ s with client := .data { w with pc := .head } },
          [.event (w.report spec sendMonoNs measured none)])
      | _ => none
    | _ => none
  | .elapsed =>
    -- `timeout` looks at the socket before it looks at the clock.
    if s.socket = [] then
      match s.client with
      | .awaitAck deadline =>
        if deadline ≤ s.clock then some ({ s with client := .failed }, []) else none
      | .data w =>
        match w.pc with
        | .recv sendMonoNs measured deadline =>
          if deadline ≤ s.clock then
            some ({ s with client := .data { w with pc := .head } },
              [.event (w.report spec sendMonoNs measured none)])
          else none
        | _ => none
      | _ => none
    else none
  | .serve i sendOk =>
    match s.toServer[i]? with
    | some frame =>
      if s.serving then some (onServe sha256 token me me frame sendOk s, []) else none
    | none => none
  | .serveOther peer frame sendOk =>
    if s.serving ∧ peer ≠ me then some (onServe sha256 token me peer frame sendOk s, []) else none
  | .arrive i =>
    match s.toClient[i]? with
    | some frame => some ({ s with socket := s.socket ++ [frame] }, [.arrived frame s.clock])
    | none => none

/-- `run_stream_udp` and `run_udp_server`, from the client's `Hello`. -/
def udpSystem (token : Option String) (spec : StreamRunSpec) (me : Peer) :
    Machine (UdpState Peer) (UdpAction Peer) UdpObs where
  init :=
    { clock := 0
      client := .hello
      socket := []
      toServer := []
      authorized := ∅
      serving := true
      toClient := [] }
  step := udpStep sha256 token spec me

/-- The number in the header of a datagram. -/
def frameSeq (frame : List UInt8) : Option ℕ :=
  (DataHeader.decode (frame.take dataHeaderSize)).toOption.map fun header => header.seq.toNat

/-- A datagram is an echo of a packet. -/
def Carries (seq : ℕ) (frame : List UInt8) : Prop :=
  frameSeq frame = some seq

/-- If the loop's `recv` completes, then with an echo of the packet that was just sent. -/
def takesEcho (s : UdpState Peer) : UdpAction Peer → Bool
  | .recv =>
    match s.client, s.socket with
    | .data w, frame :: _ => frameSeq frame = some w.seq
    | _, _ => true
  | .recvFails =>
    match s.client with
    | .data _ => false
    | _ => true
  | _ => true

/-! ## What a step can do -/

/-- What a step does to the clock, the client and its socket, and what it shows. -/
inductive UdpEffect (spec : StreamRunSpec) (s s' : UdpState Peer) :
    UdpAction Peer → List UdpObs → Prop
  | wait (n : ℕ) (hclock : s'.clock = s.clock + n) (hclient : s'.client = s.client)
      (hsocket : s'.socket = s.socket) : UdpEffect spec s s' (.wait n) []
  | server (a : UdpAction Peer) (hclock : s'.clock = s.clock) (hclient : s'.client = s.client)
      (hsocket : s'.socket = s.socket) : UdpEffect spec s s' a []
  | arrive (i : ℕ) (frame : List UInt8) (hclock : s'.clock = s.clock)
      (hclient : s'.client = s.client) (hsocket : s'.socket = s.socket ++ [frame]) :
      UdpEffect spec s s' (.arrive i) [.arrived frame s.clock]
  /-- The handshake goes on or fails. -/
  | handshake (a : UdpAction Peer) (hclock : s'.clock = s.clock)
      (hsocket : s'.socket = s.socket) (hfailed : s.client ≠ .failed)
      (hdata : ∀ w, s.client ≠ .data w) (hdata' : ∀ w, s'.client ≠ .data w) :
      UdpEffect spec s s' a []
  | ack (frame : List UInt8) (hclock : s'.clock = s.clock)
      (hsocket : s.socket = frame :: s'.socket) (hclient : s'.client = onAck frame)
      (hfailed : s.client ≠ .failed) (hdata : ∀ w, s.client ≠ .data w) :
      UdpEffect spec s s' .recv []
  | ready (hclock : s'.clock = s.clock) (hsocket : s'.socket = s.socket)
      (hclient : s.client = .ready) (hclient' : s'.client = .data ⟨s.clock, .begin, 0, 0⟩) :
      UdpEffect spec s s' .tick []
  /-- The loop goes on, and reports nothing. -/
  | loop (a : UdpAction Peer) (w w' : WaitState) (o : List UdpObs) (hclock : s'.clock = s.clock)
      (hsocket : s'.socket = s.socket) (hclient : s.client = .data w)
      (hclient' : s'.client = .data w') (heffect : WaitEffect spec s.clock w w' o)
      (hquiet : ∀ e, .event e ∉ o) : UdpEffect spec s s' a o
  | took (w : WaitState) (sendMonoNs : ℕ) (measured : Bool) (deadline : ℕ) (frame : List UInt8)
      (hclock : s'.clock = s.clock) (hsocket : s.socket = frame :: s'.socket)
      (hclient : s.client = .data w) (hpc : w.pc = .recv sendMonoNs measured deadline)
      (hclient' : s'.client = .data (onEcho spec w sendMonoNs measured frame s.clock).1) :
      UdpEffect spec s s' .recv (onEcho spec w sendMonoNs measured frame s.clock).2
  | recvFails (w : WaitState) (o : List UdpObs) (hclient : s.client = .data w) :
      UdpEffect spec s s' .recvFails o
  | elapsed (w : WaitState) (sendMonoNs : ℕ) (measured : Bool) (deadline : ℕ)
      (hclock : s'.clock = s.clock) (hsocket : s.socket = []) (hsocket' : s'.socket = [])
      (hclient : s.client = .data w) (hpc : w.pc = .recv sendMonoNs measured deadline)
      (hdeadline : deadline ≤ s.clock) (hclient' : s'.client = .data { w with pc := .head }) :
      UdpEffect spec s s' .elapsed [.event (w.report spec sendMonoNs measured none)]

/-- The server changes neither clock nor client nor socket. -/
theorem onServe_client (token : Option String) (me peer : Peer) (frame : List UInt8)
    (sendOk : Bool) (s : UdpState Peer) :
    (onServe sha256 token me peer frame sendOk s).clock = s.clock ∧
      (onServe sha256 token me peer frame sendOk s).client = s.client ∧
      (onServe sha256 token me peer frame sendOk s).socket = s.socket := by
  unfold onServe
  dsimp only
  split
  · exact ⟨rfl, rfl, rfl⟩
  · split_ifs <;> exact ⟨rfl, rfl, rfl⟩

theorem udpTick_effect {spec : StreamRunSpec} {s s' : UdpState Peer} {o : List UdpObs}
    {c : UdpClient} {frames : List (List UInt8)}
    (h : udpTick sha256 spec s.clock s.client = some (c, frames, o))
    (hs' : s' = { s with client := c, toServer := s.toServer ++ frames }) :
    UdpEffect spec s s' .tick o := by
  subst hs'
  unfold udpTick at h
  cases hclient : s.client with
  | hello | arm =>
    simp only [hclient, Option.some.injEq, Prod.mk.injEq] at h
    obtain ⟨rfl, -, rfl⟩ := h
    exact .handshake .tick rfl rfl (by simp [hclient]) (by simp [hclient]) (by simp)
  | ready =>
    simp only [hclient, Option.some.injEq, Prod.mk.injEq] at h
    obtain ⟨rfl, -, rfl⟩ := h
    exact .ready rfl rfl hclient rfl
  | data w =>
    simp only [hclient] at h
    split at h
    · rename_i sendMonoNs hpc
      simp only [Option.some.injEq, Prod.mk.injEq] at h
      obtain ⟨rfl, -, rfl⟩ := h
      exact .loop .tick w _ _ rfl rfl hclient rfl (.sent sendMonoNs hpc) (by simp)
    · rw [Option.map_eq_some_iff] at h
      obtain ⟨w', htick, h⟩ := h
      obtain ⟨rfl, -, rfl⟩ := h
      exact .loop .tick w w' [] rfl rfl hclient rfl (waitTick_effect htick) (by simp)
  | awaitAck _ | failed => simp only [hclient, reduceCtorEq] at h

theorem udpStep_effect {token : Option String} {spec : StreamRunSpec} {me : Peer}
    {s s' : UdpState Peer} {a : UdpAction Peer} {o : List UdpObs}
    (h : udpStep sha256 token spec me s a = some (s', o)) : UdpEffect spec s s' a o := by
  unfold udpStep at h
  cases a with
  | wait n =>
    obtain ⟨rfl, rfl⟩ := Prod.mk.inj (Option.some.inj h)
    exact .wait n rfl rfl rfl
  | tick =>
    dsimp only at h
    rw [Option.map_eq_some_iff] at h
    obtain ⟨⟨c, frames, o'⟩, htick, h⟩ := h
    obtain ⟨hs', rfl⟩ := Prod.mk.inj h
    exact udpTick_effect sha256 htick hs'.symm
  | sendFails =>
    dsimp only at h
    split at h
    · rename_i hclient
      obtain ⟨rfl, rfl⟩ := Prod.mk.inj (Option.some.inj h)
      exact .handshake _ rfl rfl (by simp [hclient]) (by simp [hclient]) (by simp)
    · rename_i w hclient
      split at h
      · obtain ⟨rfl, rfl⟩ := Prod.mk.inj (Option.some.inj h)
        exact .loop _ w _ [] rfl rfl hclient rfl (.idle _ rfl rfl) (by simp)
      · cases h
    · cases h
  | recv =>
    dsimp only at h
    split at h
    · rename_i deadline frame socket hclient hsocket
      obtain ⟨rfl, rfl⟩ := Prod.mk.inj (Option.some.inj h)
      exact .ack frame rfl hsocket rfl (by simp [hclient]) (by simp [hclient])
    · rename_i w frame socket hclient hsocket
      split at h
      · rename_i sendMonoNs measured deadline hpc
        obtain ⟨rfl, rfl⟩ := Prod.mk.inj (Option.some.inj h)
        exact .took w sendMonoNs measured deadline frame rfl hsocket hclient hpc rfl
      · cases h
    · cases h
  | recvFails =>
    dsimp only at h
    split at h
    · rename_i deadline hclient
      obtain ⟨rfl, rfl⟩ := Prod.mk.inj (Option.some.inj h)
      exact .handshake _ rfl rfl (by simp [hclient]) (by simp [hclient]) (by simp)
    · rename_i w hclient
      exact .recvFails w o hclient
    · cases h
  | elapsed =>
    dsimp only at h
    split_ifs at h with hsocket
    split at h
    · rename_i deadline hclient
      split_ifs at h
      obtain ⟨rfl, rfl⟩ := Prod.mk.inj (Option.some.inj h)
      exact .handshake _ rfl rfl (by simp [hclient]) (by simp [hclient]) (by simp)
    · rename_i w hclient
      split at h
      · rename_i sendMonoNs measured deadline hpc
        split_ifs at h with hdeadline
        obtain ⟨rfl, rfl⟩ := Prod.mk.inj (Option.some.inj h)
        exact .elapsed w sendMonoNs measured deadline rfl hsocket hsocket hclient hpc hdeadline rfl
      · cases h
    · cases h
  | serve i sendOk =>
    dsimp only at h
    split at h
    · split_ifs at h
      obtain ⟨rfl, rfl⟩ := Prod.mk.inj (Option.some.inj h)
      obtain ⟨h1, h2, h3⟩ := onServe_client sha256 token me me _ sendOk s
      exact .server _ h1 h2 h3
    · cases h
  | serveOther peer frame sendOk =>
    dsimp only at h
    split_ifs at h
    obtain ⟨rfl, rfl⟩ := Prod.mk.inj (Option.some.inj h)
    obtain ⟨h1, h2, h3⟩ := onServe_client sha256 token me peer frame sendOk s
    exact .server _ h1 h2 h3
  | arrive i =>
    dsimp only at h
    split at h
    · rename_i frame _
      obtain ⟨rfl, rfl⟩ := Prod.mk.inj (Option.some.inj h)
      exact .arrive i frame rfl rfl rfl
    · cases h

/-! ## What the client takes -/

/-- A control datagram is no echo. -/
theorem frameSeq_of_control {frame : List UInt8} {n : ℕ} {msg : ControlMessage}
    (h : decodeUdpControl (frame.take n) = some msg) : frameSeq frame = none := by
  have hprefix : ctrlPrefix <+: frame := by
    unfold decodeUdpControl at h
    split_ifs at h with hprefix
    exact hprefix.trans (List.take_prefix _ _)
  obtain ⟨e, he⟩ := decode_of_ctrlPrefix hprefix
  rw [frameSeq, he]
  rfl

/-- An echo of the packet that was sent : it is reported with its time. -/
theorem onEcho_of_carries {spec : StreamRunSpec} {s : WaitState} {frame : List UInt8}
    (h : frameSeq frame = some s.seq) (sendMonoNs : ℕ) (measured : Bool) (now : ℕ) :
    onEcho spec s sendMonoNs measured frame now =
      ({ s with pc := .head }, [.event (s.report spec sendMonoNs measured (some now))]) := by
  unfold frameSeq at h
  cases hd : DataHeader.decode (frame.take dataHeaderSize) with
  | error e =>
    rw [hd] at h
    cases h
  | ok header =>
    rw [hd] at h
    have hseq : header.seq.toNat = s.seq := Option.some.inj h
    have hlen := DataHeader.length_of_decode hd
    unfold onEcho
    dsimp only
    rw [if_pos hlen.ge]
    exact onHeader_of_seq hd hseq sendMonoNs measured now

/-! ## Losses -/

/-- While the loop takes only the echoes it waits for, what arrived of a packet is in the
socket, or the packet was reported as received. -/
structure UdpFaithful (spec : StreamRunSpec) (t : List UdpObs) (s : UdpState Peer) : Prop where
  handshake : (∀ w, s.client ≠ .data w) → ∀ o ∈ t, ∃ frame time, o = .arrived frame time
  timed : ∀ {w}, s.client = .data w → Timed spec s.clock t w
  taken : s.client ≠ .failed → ∀ {frame time seq}, .arrived frame time ∈ t → Carries seq frame →
    frame ∈ s.socket ∨ ∃ e, .event e ∈ t ∧ e.seq = seq ∧ e.recvMonoNs ≠ none
  real : LossIsReal spec.timeout Carries t

/-- What arrives is in the socket. -/
theorem udpFaithful_arrive {spec : StreamRunSpec} {t : List UdpObs} {s s' : UdpState Peer}
    (h : UdpFaithful spec t s) {frame : List UInt8} (hclock : s'.clock = s.clock)
    (hclient : s'.client = s.client) (hsocket : s'.socket = s.socket ++ [frame]) :
    UdpFaithful spec (t ++ [.arrived frame s.clock]) s' := by
  have honly : (∀ w, s.client ≠ .data w) →
      ∀ o ∈ t ++ [WaitObs.arrived frame s.clock], ∃ f time, o = .arrived f time := by
    intro hdata o ho
    rcases List.mem_append.mp ho with ho | ho
    · exact h.handshake hdata o ho
    · exact ⟨frame, s.clock, List.mem_singleton.mp ho⟩
  refine ⟨fun hdata => honly (hclient ▸ hdata), fun {w} hw => ?_,
    fun hfailed f time seq harr hc => ?_, ?_⟩
  · rw [hclock]
    exact (h.timed (hclient ▸ hw)).arrived frame s.clock
  · rw [hsocket]
    rcases List.mem_append.mp harr with harr | harr
    · rcases h.taken (hclient ▸ hfailed) harr hc with hmem | ⟨e, he, hseq⟩
      · exact Or.inl (List.mem_append_left _ hmem)
      · exact Or.inr ⟨e, List.mem_append_left _ he, hseq⟩
    · obtain ⟨rfl, -⟩ : f = frame ∧ time = s.clock := by simpa using harr
      exact Or.inl (List.mem_append_right _ List.mem_cons_self)
  · by_cases hdata : ∃ w, s.client = .data w
    · obtain ⟨w, hw⟩ := hdata
      exact h.real.arrived (h.timed hw) frame
    · exact lossIsReal_of_arrived (honly (not_exists.mp hdata))

/-- Nothing is shown, and what is in the socket stays there or was no echo. -/
theorem udpFaithful_quiet {spec : StreamRunSpec} {t : List UdpObs} {s s' : UdpState Peer}
    (h : UdpFaithful spec t s) (hdata : ∀ w, s.client ≠ .data w)
    (htimed : ∀ {w}, s'.client = .data w → Timed spec s'.clock t w)
    (hsocket : s'.client ≠ .failed → s.client ≠ .failed ∧
      ∀ f ∈ s.socket, f ∈ s'.socket ∨ frameSeq f = none) : UdpFaithful spec (t ++ []) s' := by
  rw [List.append_nil]
  refine ⟨fun _ => h.handshake hdata, htimed, fun hfailed f time seq harr hc => ?_, h.real⟩
  obtain ⟨hfailed, hkept⟩ := hsocket hfailed
  rcases h.taken hfailed harr hc with hmem | hevent
  · refine Or.inl ((hkept f hmem).resolve_right fun hnone => ?_)
    cases hnone.symm.trans hc
  · exact Or.inr hevent

/-- The client and its socket stay as they are. -/
theorem udpFaithful_unchanged {spec : StreamRunSpec} {t : List UdpObs} {s s' : UdpState Peer}
    (h : UdpFaithful spec t s) (hclock : s.clock ≤ s'.clock) (hclient : s'.client = s.client)
    (hsocket : s'.socket = s.socket) : UdpFaithful spec (t ++ []) s' := by
  rw [List.append_nil]
  refine ⟨fun hdata => h.handshake (hclient ▸ hdata),
    fun hw => (h.timed (hclient ▸ hw)).mono hclock, fun hfailed _ _ _ => ?_, h.real⟩
  rw [hsocket]
  exact h.taken (hclient ▸ hfailed)

/-- The packet that was sent is reported : as lost only if nothing is in the socket, and else
what is taken from the socket is an echo of it. -/
theorem udpFaithful_report {spec : StreamRunSpec} {t : List UdpObs} {s s' : UdpState Peer}
    (h : UdpFaithful spec t s) {w : WaitState} {sendMonoNs deadline : ℕ} {measured : Bool}
    {recvMonoNs : Option ℕ} (hclock : s'.clock = s.clock) (hclient : s.client = .data w)
    (hpc : w.pc = .recv sendMonoNs measured deadline)
    (hclient' : s'.client = .data { w with pc := .head })
    (hlost : recvMonoNs = none → s.socket = [] ∧ deadline ≤ s.clock)
    (hkept : ∀ f ∈ s.socket, f ∈ s'.socket ∨ recvMonoNs ≠ none ∧ frameSeq f = some w.seq) :
    UdpFaithful spec (t ++ [.event (w.report spec sendMonoNs measured recvMonoNs)]) s' := by
  have htimed := h.timed hclient
  have heffect : WaitEffect (β := List UInt8) spec s.clock w { w with pc := .head }
      [.event (w.report spec sendMonoNs measured recvMonoNs)] :=
    .report sendMonoNs measured deadline recvMonoNs hpc
  have hfailed : s.client ≠ .failed := by
    rw [hclient]
    nofun
  refine ⟨fun hdata => absurd hclient' (hdata _), fun {w'} hw' => ?_,
    fun _ f time seq harr hc => ?_, h.real.step htimed heffect ?_⟩
  · obtain rfl := UdpClient.data.inj (hclient'.symm.trans hw')
    rw [hclock]
    exact htimed.report hpc fun hnone => (hlost hnone).2
  · have harr : .arrived f time ∈ t := by simpa using harr
    rcases h.taken hfailed harr hc with hmem | ⟨e, he, hseq⟩
    · rcases hkept f hmem with hmem | ⟨hrecv, hseq⟩
      · exact Or.inl hmem
      · obtain rfl : w.seq = seq := Option.some.inj (hseq.symm.trans hc)
        exact Or.inr ⟨_, List.mem_append_right _ List.mem_cons_self, rfl, hrecv⟩
    · exact Or.inr ⟨e, List.mem_append_left _ he, hseq⟩
  · intro e he hnone f time harr hc
    obtain rfl : e = w.report spec sendMonoNs measured recvMonoNs := by simpa using he
    rcases h.taken hfailed harr hc with hmem | ⟨e', he', hseq, -⟩
    · rw [(hlost hnone).1] at hmem
      cases hmem
    · have hlt := htimed.event_lt (by rw [hpc]; rfl) he'
      exact absurd hseq hlt.ne

/-- Each step keeps this, if the loop takes only the echoes it waits for. -/
theorem udpFaithful_step {spec : StreamRunSpec} {t o : List UdpObs} {s s' : UdpState Peer}
    {a : UdpAction Peer} (h : UdpFaithful spec t s) (ha : takesEcho s a = true)
    (he : UdpEffect spec s s' a o) : UdpFaithful spec (t ++ o) s' := by
  cases he with
  | arrive i frame hclock hclient hsocket => exact udpFaithful_arrive h hclock hclient hsocket
  | elapsed w sendMonoNs measured deadline hclock hsocket _ hclient hpc hdeadline hclient' =>
    exact udpFaithful_report h hclock hclient hpc hclient' (fun _ => ⟨hsocket, hdeadline⟩)
      (by simp [hsocket])
  | took w sendMonoNs measured deadline frame hclock hsocket hclient hpc hclient' =>
    have hcarries : frameSeq frame = some w.seq := by
      simpa [takesEcho, hclient, hsocket] using ha
    rw [onEcho_of_carries hcarries] at hclient' ⊢
    refine udpFaithful_report h hclock hclient hpc hclient' nofun fun f hf => ?_
    rw [hsocket] at hf
    rcases List.mem_cons.mp hf with rfl | hf
    · exact Or.inr ⟨nofun, hcarries⟩
    · exact Or.inl hf
  | recvFails w o hclient => simp [takesEcho, hclient] at ha
  | handshake a hclock hsocket hfailed hdata hdata' =>
    exact udpFaithful_quiet h hdata (fun hw => absurd hw (hdata' _))
      fun _ => ⟨hfailed, fun f hf => Or.inl (hsocket ▸ hf)⟩
  | ack frame hclock hsocket hclient hfailed hdata =>
    refine udpFaithful_quiet h hdata (fun hw => absurd (hclient ▸ hw) (onAck_ne_data frame _))
      fun hnofail => ⟨hfailed, fun f hf => ?_⟩
    rw [hsocket] at hf
    rcases List.mem_cons.mp hf with rfl | hf
    · right
      rw [hclient, onAck] at hnofail
      split at hnofail
      · exact absurd rfl hnofail
      · rename_i hcontrol
        exact frameSeq_of_control hcontrol
    · exact Or.inl hf
  | ready hclock hsocket hclient hclient' =>
    have hdata : ∀ w, s.client ≠ .data w := by simp [hclient]
    refine udpFaithful_quiet h hdata (fun _ => timed_init spec _ _ (h.handshake hdata))
      fun _ => ⟨by simp [hclient], fun f hf => Or.inl (hsocket ▸ hf)⟩
  | wait n hclock hclient hsocket => exact udpFaithful_unchanged h (by omega) hclient hsocket
  | server a hclock hclient hsocket => exact udpFaithful_unchanged h hclock.ge hclient hsocket
  | loop a w w' o hclock hsocket hclient hclient' heffect hquiet =>
    have htimed := h.timed hclient
    refine ⟨fun hdata => absurd hclient' (hdata _), fun {w''} hw'' => ?_,
      fun _ f time seq harr hc => ?_, h.real.step htimed heffect fun e he => absurd he (hquiet e)⟩
    · obtain rfl := UdpClient.data.inj (hclient'.symm.trans hw'')
      rw [hclock]
      exact htimed.step heffect fun _ e he => absurd he (hquiet e)
    · have harr : .arrived f time ∈ t :=
        (List.mem_append.mp harr).resolve_right heffect.not_arrived
      rw [hsocket]
      rcases h.taken (by rw [hclient]; nofun) harr hc with hmem | ⟨e, he, hseq⟩
      · exact Or.inl hmem
      · exact Or.inr ⟨e, List.mem_append_left _ he, hseq⟩

/-- In every run in which each datagram that the loop takes is an echo of the packet it has just
sent, a packet is reported as lost only if no echo of it reached the client's socket before the
timeout, counted from its send, was over. -/
theorem udp_lossIsReal {token : Option String} {spec : StreamRunSpec} {me : Peer}
    {t : List UdpObs} {s : UdpState Peer}
    (h : (udpSystem sha256 token spec me).ReachWhile (fun s a => takesEcho s a = true) t s) :
    LossIsReal spec.timeout Carries t := by
  have hfaithful : UdpFaithful spec t s := by
    refine h.invariant ⟨fun _ => nofun, nofun, fun _ => nofun, fun _ => nofun⟩
      fun h ha hstep => udpFaithful_step h ha (udpStep_effect sha256 hstep)
  exact hfaithful.real

/-! ## Runs -/

/-- The datagram of a `Hello`. -/
def helloDatagram (spec : StreamRunSpec) : List UInt8 :=
  ctrlPrefix ++ (clientHello sha256 spec.streamId spec).serialize

/-- The datagram of an `Ack` that accepts. -/
def acceptDatagram : List UInt8 :=
  encodeControlDatagram (.ack 0 true none)

theorem decode_helloDatagram (spec : StreamRunSpec) :
    decodeControlDatagram ((helloDatagram sha256 spec).take (64 * 1024)) =
      some (clientHello sha256 spec.streamId spec) := by
  have hlen := length_clientHello_le sha256 spec.streamId spec
  have hprefix : ctrlPrefix.length = 12 := by decide
  have htake : (helloDatagram sha256 spec).take (64 * 1024) = helloDatagram sha256 spec := by
    refine List.take_of_length_le ?_
    rw [helloDatagram, List.length_append, hprefix]
    omega
  unfold decodeControlDatagram
  rw [htake, helloDatagram, if_pos (List.prefix_append _ _), List.drop_left,
    ControlMessage.deserialize_serialize (framed_clientHello sha256 spec.streamId spec).1]

theorem onAck_acceptDatagram : onAck acceptDatagram = .ready := by
  have hframed : Framed (.ack 0 true none) := framed_ack 0 true (by simp)
  have hlen : acceptDatagram.length ≤ 4 * 1024 := by decide
  have hdecode : decodeUdpControl acceptDatagram = some (.ack 0 true none) := by
    unfold decodeUdpControl
    rw [acceptDatagram, encodeControlDatagram, if_pos (List.prefix_append _ _), List.drop_left,
      ControlMessage.deserialize_serialize hframed.1]
  unfold onAck
  rw [List.take_of_length_le hlen, hdecode]
  rfl

/-- The client at the start of its loop, with its peer authorized. -/
def loopStart (me : Peer) (hello ack : List UInt8) : UdpState Peer where
  clock := 0
  client := .data ⟨0, .begin, 0, 0⟩
  socket := []
  toServer := [hello]
  authorized := {me}
  serving := true
  toClient := [ack]

/-- If nothing is lost or delayed, a server without a token lets the client begin. -/
theorem reach_loopStart (spec : StreamRunSpec) (me : Peer) :
    (udpSystem sha256 none spec me).ReachWhile (fun s a => takesEcho s a = true)
      [.arrived acceptDatagram 0] (loopStart me (helloDatagram sha256 spec) acceptDatagram) := by
  have hserve : ∀ s : UdpState Peer, s.authorized = ∅ →
      onServe sha256 none me me (helloDatagram sha256 spec) true s = { s with
        authorized := {me}, toClient := s.toClient ++ [acceptDatagram] } := by
    intro s hs
    unfold onServe handleDatagram
    rw [decode_helloDatagram, hs]
    simp [clientHello, tokenMatches, acceptDatagram, Reply.bytes]
  have hexec : (udpSystem sha256 none spec me).execWhile (fun s a => takesEcho s a = true)
      (udpSystem sha256 none spec me).init
      [.tick, .tick, .serve 0 true, .arrive 0, .recv, .tick] = some (loopStart me
        (helloDatagram sha256 spec) acceptDatagram, [.arrived acceptDatagram 0]) := by
    have hhello : ctrlPrefix ++ (clientHello sha256 spec.streamId spec).serialize =
        helloDatagram sha256 spec := rfl
    simp [Machine.execWhile, udpSystem, udpStep, udpTick, takesEcho, hhello, hserve,
      onAck_acceptDatagram, loopStart]
  exact Machine.ReachWhile.start.execWhile hexec

end System

/-- A stream with a timeout of five nanoseconds. -/
def udpSpec : StreamRunSpec :=
  ⟨7, 0, .udp, 100, 0, 0, none, none, 5⟩

/-- The echo of the packet `seq`, sent at `sendMonoNs`. -/
def udpEcho (seq sendMonoNs : ℕ) : List UInt8 :=
  (packetHeader udpSpec (UInt64.ofNat seq) (UInt64.ofNat sendMonoNs)).encode

/-- The echo of the first packet comes after its timeout, that of the second at once. -/
def lateEcho : List (UdpAction Unit) :=
  [.replicate 7 .tick, [.wait 5, .elapsed, .serve 1 true, .arrive 1], .replicate 6 .tick,
    [.recv, .serve 2 true, .arrive 2]].flatten

theorem lateEcho_exec : ((udpSystem noHash none udpSpec ()).exec
    (loopStart () (helloDatagram noHash udpSpec) acceptDatagram) lateEcho).map Prod.snd =
      some [.sent 1 0, .event ⟨0, 1, 0, 0, none, true⟩, .arrived (udpEcho 1 0) 5, .sent 2 5,
        .event ⟨0, 2, 0, 5, none, true⟩, .arrived (udpEcho 2 5) 5] := by
  decide +kernel

/-- After one late echo, the next packet is reported as lost, although its echo reaches the
client's socket at once. -/
theorem not_lossIsReal_late_echo :
    ¬∀ t s, (udpSystem noHash none udpSpec ()).Reach t s →
      LossIsReal udpSpec.timeout Carries t := by
  intro h
  obtain ⟨⟨s, t⟩, hexec, rfl⟩ := Option.map_eq_some_iff.mp lateEcho_exec
  have hreal := h _ s ((reach_loopStart noHash udpSpec ()).reach.exec hexec)
  have hcarries : frameSeq (udpEcho 2 5) = some 2 := by decide
  have hle := hreal ⟨0, 2, 0, 5, none, true⟩ (by simp) rfl 5 (by simp) (udpEcho 2 5) 5 (by simp)
    hcarries
  exact absurd hle (by decide)

/-- The first packet is lost, the second is echoed. -/
def oneLost : List (UdpAction Unit) :=
  [.replicate 7 .tick, [.wait 5, .elapsed], .replicate 6 .tick,
    [.serve 2 true, .wait 1, .arrive 1, .recv]].flatten

theorem oneLost_exec : ((udpSystem noHash none udpSpec ()).execWhile
    (fun s a => takesEcho s a = true)
    (loopStart () (helloDatagram noHash udpSpec) acceptDatagram) oneLost).map Prod.snd =
      some [.sent 1 0, .event ⟨0, 1, 0, 0, none, true⟩, .sent 2 5, .arrived (udpEcho 2 5) 6,
        .event ⟨0, 2, 0, 5, some 6, true⟩] := by
  decide +kernel

theorem udp_lossIsReal_oneLost : ∃ t s,
    (udpSystem noHash none udpSpec ()).ReachWhile (fun s a => takesEcho s a = true) t s ∧
      .event ⟨0, 1, 0, 0, none, true⟩ ∈ t ∧ LossIsReal udpSpec.timeout Carries t := by
  obtain ⟨⟨s, t⟩, hexec, rfl⟩ := Option.map_eq_some_iff.mp oneLost_exec
  have hreach := (reach_loopStart noHash udpSpec ()).execWhile hexec
  exact ⟨_, s, hreach, by simp, udp_lossIsReal noHash hreach⟩

end Ipfusch
