import Ipfusch.UdpStream
import Ipfusch.WaitRun

/-!
# What the UDP client and the server exchange

`UdpMove` is each step of `udpSystem`, written out. `WaitInvariant.udp_reach` is the induction rule
of stop and wait for the UDP client.

`udp_exchange` : whatever the network drops, delays, duplicates or reorders, and whatever other
peers send, a packet is reported as received only if the server has sent its echo, and the client is
in its loop only if the server has authorized it. So a client without the server's token sends no
packet.
-/

set_option linter.unusedSectionVars false

namespace Ipfusch

section Udp

variable (sha256 : List UInt8 → Digest) {Peer : Type} [DecidableEq Peer]

/-! ## Steps -/

/-- The steps of the system. -/
inductive UdpMove (token : Option String) (spec : StreamRunSpec) (me : Peer) (s : UdpState Peer) :
    UdpAction Peer → UdpState Peer → List UdpObs → Prop
  | wait (n : ℕ) : UdpMove token spec me s (.wait n) { s with clock := s.clock + n } []
  | tick (client : UdpClient) (frames : List (List UInt8)) (o : List UdpObs)
      (htick : udpTick sha256 spec s.clock s.client = some (client, frames, o)) :
      UdpMove token spec me s .tick
        { s with client := client, toServer := s.toServer ++ frames } o
  | helloFails (hclient : s.client = .hello) :
      UdpMove token spec me s .sendFails { s with client := .failed } []
  | sendFails (w : WaitState) (sendMonoNs : ℕ) (hclient : s.client = .data w)
      (hpc : w.pc = .send sendMonoNs) :
      UdpMove token spec me s .sendFails { s with client := .data { w with pc := .failed } } []
  | ack (deadline : ℕ) (frame : List UInt8) (socket : List (List UInt8))
      (hclient : s.client = .awaitAck deadline) (hsocket : s.socket = frame :: socket) :
      UdpMove token spec me s .recv { s with client := onAck frame, socket := socket } []
  | took (w : WaitState) (sendMonoNs : ℕ) (measured : Bool) (deadline : ℕ) (frame : List UInt8)
      (socket : List (List UInt8)) (hclient : s.client = .data w)
      (hpc : w.pc = .recv sendMonoNs measured deadline) (hsocket : s.socket = frame :: socket) :
      UdpMove token spec me s .recv { s with
        client := .data (onEcho spec w sendMonoNs measured frame s.clock).1
        socket := socket } (onEcho spec w sendMonoNs measured frame s.clock).2
  /-- There is no answer to the `Hello`, or its `recv` fails. -/
  | ackFails (a : UdpAction Peer) (deadline : ℕ) (hclient : s.client = .awaitAck deadline) :
      UdpMove token spec me s a { s with client := .failed } []
  /-- There is no echo, or its `recv` fails. -/
  | lost (a : UdpAction Peer) (w : WaitState) (sendMonoNs : ℕ) (measured : Bool) (deadline : ℕ)
      (hclient : s.client = .data w) (hpc : w.pc = .recv sendMonoNs measured deadline) :
      UdpMove token spec me s a { s with client := .data { w with pc := .head } }
        [.event (w.report spec sendMonoNs measured none)]
  | serve (i : ℕ) (frame : List UInt8) (sendOk : Bool) (hframe : s.toServer[i]? = some frame)
      (hserving : s.serving = true) :
      UdpMove token spec me s (.serve i sendOk) (onServe sha256 token me me frame sendOk s) []
  | serveOther (peer : Peer) (frame : List UInt8) (sendOk : Bool) (hserving : s.serving = true)
      (hpeer : peer ≠ me) : UdpMove token spec me s (.serveOther peer frame sendOk)
        (onServe sha256 token me peer frame sendOk s) []
  | arrive (i : ℕ) (frame : List UInt8) (hframe : s.toClient[i]? = some frame) :
      UdpMove token spec me s (.arrive i) { s with socket := s.socket ++ [frame] }
        [.arrived frame s.clock]

variable {token : Option String} {spec : StreamRunSpec} {me : Peer} {t o : List UdpObs}
  {s s' : UdpState Peer} {a : UdpAction Peer}

theorem udpStep_move (hs : udpStep sha256 token spec me s a = some (s', o)) :
    UdpMove sha256 token spec me s a s' o := by
  unfold udpStep at hs
  cases a with
  | wait n =>
    obtain ⟨rfl, rfl⟩ := Prod.mk.inj (Option.some.inj hs)
    exact .wait n
  | tick =>
    obtain ⟨⟨client, frames, o'⟩, htick, hs⟩ := Option.map_eq_some_iff.mp hs
    obtain ⟨rfl, rfl⟩ := Prod.mk.inj hs
    exact .tick client frames o' htick
  | sendFails =>
    dsimp only at hs
    split at hs
    · rename_i hclient
      obtain ⟨rfl, rfl⟩ := Prod.mk.inj (Option.some.inj hs)
      exact .helloFails hclient
    · rename_i w hclient
      split at hs
      · rename_i sendMonoNs hpc
        obtain ⟨rfl, rfl⟩ := Prod.mk.inj (Option.some.inj hs)
        exact .sendFails w sendMonoNs hclient hpc
      · cases hs
    · cases hs
  | recv =>
    dsimp only at hs
    split at hs
    · rename_i deadline frame socket hclient hsocket
      obtain ⟨rfl, rfl⟩ := Prod.mk.inj (Option.some.inj hs)
      exact .ack deadline frame socket hclient hsocket
    · rename_i w frame socket hclient hsocket
      split at hs
      · rename_i sendMonoNs measured deadline hpc
        obtain ⟨rfl, rfl⟩ := Prod.mk.inj (Option.some.inj hs)
        exact .took w sendMonoNs measured deadline frame socket hclient hpc hsocket
      · cases hs
    · cases hs
  | recvFails =>
    dsimp only at hs
    split at hs
    · rename_i deadline hclient
      obtain ⟨rfl, rfl⟩ := Prod.mk.inj (Option.some.inj hs)
      exact .ackFails _ deadline hclient
    · rename_i w hclient
      split at hs
      · rename_i sendMonoNs measured deadline hpc
        obtain ⟨rfl, rfl⟩ := Prod.mk.inj (Option.some.inj hs)
        exact .lost _ w sendMonoNs measured deadline hclient hpc
      · cases hs
    · cases hs
  | elapsed =>
    dsimp only at hs
    split_ifs at hs
    split at hs
    · rename_i deadline hclient
      split_ifs at hs
      obtain ⟨rfl, rfl⟩ := Prod.mk.inj (Option.some.inj hs)
      exact .ackFails _ deadline hclient
    · rename_i w hclient
      split at hs
      · rename_i sendMonoNs measured deadline hpc
        split_ifs at hs
        obtain ⟨rfl, rfl⟩ := Prod.mk.inj (Option.some.inj hs)
        exact .lost _ w sendMonoNs measured deadline hclient hpc
      · cases hs
    · cases hs
  | serve i sendOk =>
    dsimp only at hs
    split at hs
    · rename_i frame hframe
      split_ifs at hs with hserving
      obtain ⟨rfl, rfl⟩ := Prod.mk.inj (Option.some.inj hs)
      exact .serve i frame sendOk hframe hserving
    · cases hs
  | serveOther peer frame sendOk =>
    dsimp only at hs
    split_ifs at hs with hserving
    obtain ⟨rfl, rfl⟩ := Prod.mk.inj (Option.some.inj hs)
    exact .serveOther peer frame sendOk hserving.1 hserving.2
  | arrive i =>
    dsimp only at hs
    split at hs
    · rename_i frame hframe
      obtain ⟨rfl, rfl⟩ := Prod.mk.inj (Option.some.inj hs)
      exact .arrive i frame hframe
    · cases hs

/-- The steps that the client takes by itself. -/
inductive UdpTick (spec : StreamRunSpec) (now : ℕ) :
    UdpClient → UdpClient → List (List UInt8) → List UdpObs → Prop
  | hello : UdpTick spec now .hello .arm [helloDatagram sha256 spec] []
  | arm : UdpTick spec now .arm (.awaitAck (now + spec.timeout)) [] []
  | ready : UdpTick spec now .ready (.data ⟨now, .begin, 0, 0⟩) [] []
  | sent (w : WaitState) (sendMonoNs : ℕ) (hpc : w.pc = .send sendMonoNs) :
      UdpTick spec now (.data w) (.data { w with pc := .measure sendMonoNs })
        [packetDatagram spec w sendMonoNs] [.sent w.seq now]
  | loop (w w' : WaitState) (htick : waitTick spec w now = some w') :
      UdpTick spec now (.data w) (.data w') [] []

theorem udpTick_cases {now : ℕ} {c c' : UdpClient} {frames : List (List UInt8)}
    (h : udpTick sha256 spec now c = some (c', frames, o)) :
    UdpTick sha256 spec now c c' frames o := by
  unfold udpTick at h
  cases c with
  | hello =>
    simp only [Option.some.injEq, Prod.mk.injEq] at h
    obtain ⟨rfl, rfl, rfl⟩ := h
    exact .hello
  | arm =>
    simp only [Option.some.injEq, Prod.mk.injEq] at h
    obtain ⟨rfl, rfl, rfl⟩ := h
    exact .arm
  | ready =>
    simp only [Option.some.injEq, Prod.mk.injEq] at h
    obtain ⟨rfl, rfl, rfl⟩ := h
    exact .ready
  | data w =>
    dsimp only at h
    split at h
    · rename_i sendMonoNs hpc
      simp only [Option.some.injEq, Prod.mk.injEq] at h
      obtain ⟨rfl, rfl, rfl⟩ := h
      exact .sent w sendMonoNs hpc
    · obtain ⟨w', htick, h⟩ := Option.map_eq_some_iff.mp h
      simp only [Prod.mk.injEq] at h
      obtain ⟨rfl, rfl, rfl⟩ := h
      exact .loop w w' htick
  | awaitAck _ | failed => cases h

/-! ## The rule -/

section Rule

variable {P : ℕ → List UdpObs → WaitState → Prop} {w : WaitState}

/-- A datagram that was taken ends the wait. -/
theorem WaitInvariant.onEcho (h : WaitInvariant spec P) {clock sendMonoNs deadline : ℕ}
    {measured : Bool} (hw : P clock t w) (hpc : w.pc = .recv sendMonoNs measured deadline)
    (frame : List UInt8) :
    P clock (t ++ (Ipfusch.onEcho spec w sendMonoNs measured frame clock).2)
      (Ipfusch.onEcho spec w sendMonoNs measured frame clock).1 := by
  unfold Ipfusch.onEcho
  dsimp only
  split_ifs
  · exact h.onHeader hw hpc _
  · exact h.report hw hpc nofun

/-- A step in the loop stays there, and keeps the property. -/
theorem WaitInvariant.udpMove (h : WaitInvariant spec P)
    (hmove : UdpMove sha256 token spec me s a s' o) (hclient : s.client = .data w)
    (hw : P s.clock t w) : ∃ w', s'.client = .data w' ∧ P s'.clock (t ++ o) w' := by
  cases hmove with
  | wait n =>
    rw [List.append_nil]
    exact ⟨w, hclient, h.wait hw (Nat.le_add_right _ _)⟩
  | tick client frames o htick =>
    rw [hclient] at htick
    cases udpTick_cases sha256 htick with
    | sent _ sendMonoNs hpc => exact ⟨_, rfl, h.sent hw hpc⟩
    | loop _ w' hloop =>
      rw [List.append_nil t]
      exact ⟨w', rfl, h.tick hw hloop⟩
  | sendFails w' sendMonoNs hclient' hpc =>
    obtain rfl := UdpClient.data.inj (hclient.symm.trans hclient')
    rw [List.append_nil]
    exact ⟨_, rfl, h.sendFails hw hpc⟩
  | took w' sendMonoNs measured deadline frame socket hclient' hpc _ =>
    obtain rfl := UdpClient.data.inj (hclient.symm.trans hclient')
    exact ⟨_, rfl, h.onEcho hw hpc frame⟩
  | lost _ w' sendMonoNs measured deadline hclient' hpc =>
    obtain rfl := UdpClient.data.inj (hclient.symm.trans hclient')
    exact ⟨_, rfl, h.report hw hpc nofun⟩
  | serve i frame sendOk _ _ =>
    obtain ⟨hclock, hsame, -⟩ := onServe_client sha256 token me me frame sendOk s
    rw [List.append_nil, hclock, hsame]
    exact ⟨w, hclient, hw⟩
  | serveOther peer frame sendOk _ _ =>
    obtain ⟨hclock, hsame, -⟩ := onServe_client sha256 token me peer frame sendOk s
    rw [List.append_nil, hclock, hsame]
    exact ⟨w, hclient, hw⟩
  | arrive i frame _ => exact ⟨w, hclient, h.arrived hw _ _⟩
  | helloFails hclient' | ack _ _ _ hclient' _ | ackFails _ _ hclient' =>
    cases hclient.symm.trans hclient'

/-- Before the loop, things only arrive, and a step may enter the loop. -/
theorem udpMove_handshake (hmove : UdpMove sha256 token spec me s a s' o)
    (hdata : ∀ w, s.client ≠ .data w) : (∀ ob ∈ o, ∃ b time, ob = .arrived b time) ∧
      ((∀ w, s'.client ≠ .data w) ∨ o = [] ∧ s'.client = .data ⟨s'.clock, .begin, 0, 0⟩) := by
  cases hmove with
  | wait n => exact ⟨nofun, .inl hdata⟩
  | tick client frames o htick =>
    cases hclient : s.client with
    | hello | arm =>
      rw [hclient] at htick
      cases udpTick_cases sha256 htick
      exact ⟨nofun, .inl nofun⟩
    | ready =>
      rw [hclient] at htick
      cases udpTick_cases sha256 htick
      exact ⟨nofun, .inr ⟨rfl, rfl⟩⟩
    | data w => exact absurd hclient (hdata w)
    | awaitAck _ | failed =>
      rw [hclient] at htick
      cases htick
  | helloFails _ | ackFails _ _ _ => exact ⟨nofun, .inl nofun⟩
  | ack _ frame _ _ _ => exact ⟨nofun, .inl (onAck_ne_data frame)⟩
  | serve i frame sendOk _ _ =>
    rw [(onServe_client sha256 token me me frame sendOk s).2.1]
    exact ⟨nofun, .inl hdata⟩
  | serveOther peer frame sendOk _ _ =>
    rw [(onServe_client sha256 token me peer frame sendOk s).2.1]
    exact ⟨nofun, .inl hdata⟩
  | arrive i frame _ => exact ⟨fun ob hob => ⟨frame, _, List.mem_singleton.mp hob⟩, .inl hdata⟩
  | sendFails _ _ hclient _ | took _ _ _ _ _ _ hclient _ _ | lost _ _ _ _ _ hclient _ =>
    exact absurd hclient (hdata _)

/-- The property holds of each run of the UDP client that has entered its loop. -/
theorem WaitInvariant.udp_reach (h : WaitInvariant spec P)
    (hr : (udpSystem sha256 token spec me).Reach t s) :
    (∃ w, s.client = .data w ∧ P s.clock t w) ∨
      (∀ w, s.client ≠ .data w) ∧ ∀ ob ∈ t, ∃ b time, ob = .arrived b time := by
  refine hr.invariant (I := fun t s => (∃ w, s.client = .data w ∧ P s.clock t w) ∨
    (∀ w, s.client ≠ .data w) ∧ ∀ ob ∈ t, ∃ b time, ob = .arrived b time) (.inr ⟨nofun, nofun⟩)
    fun {t s a s' o} _ hI hs => ?_
  have hmove := udpStep_move sha256 hs
  rcases hI with ⟨w, hclient, hw⟩ | ⟨hdata, ht⟩
  · exact .inl (h.udpMove sha256 hmove hclient hw)
  · obtain ⟨ho, hno | ⟨rfl, hclient⟩⟩ := udpMove_handshake sha256 hmove hdata
    · exact .inr ⟨hno, fun ob hob => (List.mem_append.mp hob).elim (ht ob) (ho ob)⟩
    · rw [List.append_nil]
      exact .inl ⟨_, hclient, h.of_arrived _ ht⟩

end Rule

/-! ## Datagrams -/

/-- The server accepts the `Hello` of a stream. -/
def acceptsHello (token : Option String) (spec : StreamRunSpec) : Bool :=
  tokenMatches sha256 token (spec.token.map (hashToken sha256))

/-- The answer to the `Hello`. -/
def helloAnswer (token : Option String) (spec : StreamRunSpec) : ControlMessage :=
  .ack 0 (acceptsHello sha256 token spec)
    (if acceptsHello sha256 token spec then none else some "token or protocol rejected")

/-- The echo of a packet. -/
def packetEcho (spec : StreamRunSpec) (seq sendMonoNs : ℕ) : List UInt8 :=
  (packetHeader spec (UInt64.ofNat seq) (UInt64.ofNat sendMonoNs)).encode

theorem packetDatagram_eq (spec : StreamRunSpec) (w : WaitState) (sendMonoNs : ℕ) :
    packetDatagram spec w sendMonoNs =
      packetEcho spec w.seq sendMonoNs ++ List.replicate spec.payloadBytes.toNat 0 := by
  refine fillFrame_eq ?_ _
  rw [ZeroPayload, List.drop_replicate, Nat.add_sub_cancel_left]

theorem length_packetEcho (spec : StreamRunSpec) (seq sendMonoNs : ℕ) :
    (packetEcho spec seq sendMonoNs).length = dataHeaderSize :=
  DataHeader.length_encode _

/-- What the server makes of a packet : its echo, if it answers at all. -/
theorem answer_packet (known : Bool) {seq sendMonoNs n : ℕ} {payload : List UInt8} {reply : Reply}
    (h : answer sha256 token known ((packetEcho spec seq sendMonoNs ++ payload).take n) =
      some reply) : reply = .echo (packetEcho spec seq sendMonoNs) := by
  have hcontrol : decodeControlDatagram ((packetEcho spec seq sendMonoNs ++ payload).take n) =
      none := by
    refine if_neg fun hctrl => ?_
    exact not_prefix_encode rfl payload (hctrl.trans (List.take_prefix _ _))
  unfold answer at h
  rw [hcontrol] at h
  dsimp only at h
  split_ifs at h
  cases hd : DataHeader.decode (((packetEcho spec seq sendMonoNs ++ payload).take n).take
      dataHeaderSize) with
  | error e =>
    rw [hd] at h
    cases h
  | ok header =>
    rw [hd] at h
    have hlen := DataHeader.length_of_decode hd
    rw [List.take_take, List.length_take, List.length_append, length_packetEcho] at hlen
    have hmin : min dataHeaderSize n = dataHeaderSize := by omega
    have htake : ((packetEcho spec seq sendMonoNs ++ payload).take n).take dataHeaderSize =
        packetEcho spec seq sendMonoNs := by
      rw [List.take_take, hmin, ← length_packetEcho spec seq sendMonoNs, List.take_left]
    rw [htake] at h
    exact (Option.some.inj h).symm

/-- What the server makes of the `Hello`. -/
theorem authorizes_helloDatagram : authorizes sha256 token
    ((helloDatagram sha256 spec).take (64 * 1024)) = acceptsHello sha256 token spec := by
  unfold authorizes
  rw [decode_helloDatagram]
  rfl

theorem answer_helloDatagram (known : Bool) :
    answer sha256 token known ((helloDatagram sha256 spec).take (64 * 1024)) =
      some (.control (helloAnswer sha256 token spec)) := by
  unfold answer
  rw [authorizes_helloDatagram, decode_helloDatagram]
  rfl

theorem framed_helloAnswer : Framed (helloAnswer sha256 token spec) := by
  refine framed_ack 0 _ fun r hr => ?_
  split_ifs at hr
  obtain rfl := Option.some.inj hr
  decide

/-- The client goes on if its `Hello` was accepted. -/
theorem onAck_helloAnswer : onAck (encodeControlDatagram (helloAnswer sha256 token spec)) =
    if acceptsHello sha256 token spec then .ready else .failed := by
  have hlen : (encodeControlDatagram (helloAnswer sha256 token spec)).length ≤ 4 * 1024 := by
    unfold helloAnswer
    cases acceptsHello sha256 token spec <;> decide
  have hdecode : decodeUdpControl (encodeControlDatagram (helloAnswer sha256 token spec)) =
      some (helloAnswer sha256 token spec) := by
    unfold decodeUdpControl encodeControlDatagram
    rw [if_pos (List.prefix_append _ _), List.drop_left,
      ControlMessage.deserialize_serialize (framed_helloAnswer sha256).1]
  unfold onAck
  rw [List.take_of_length_le hlen, hdecode]
  unfold helloAnswer
  cases acceptsHello sha256 token spec <;> rfl

/-- An echo is no answer to a `Hello`. -/
theorem onAck_packetEcho (spec : StreamRunSpec) (seq sendMonoNs : ℕ) :
    onAck (packetEcho spec seq sendMonoNs) = .failed := by
  have hcontrol : decodeUdpControl ((packetEcho spec seq sendMonoNs).take (4 * 1024)) = none := by
    refine if_neg fun hctrl => ?_
    refine not_prefix_encode (h := packetHeader spec (UInt64.ofNat seq) (UInt64.ofNat sendMonoNs))
      rfl [] (hctrl.trans ?_)
    rw [List.append_nil]
    exact List.take_prefix _ _
  unfold onAck
  rw [hcontrol]

theorem frameSeq_helloAnswer :
    frameSeq (encodeControlDatagram (helloAnswer sha256 token spec)) = none := by
  obtain ⟨e, he⟩ := decode_of_ctrlPrefix (List.prefix_append ctrlPrefix
    (helloAnswer sha256 token spec).serialize)
  unfold frameSeq encodeControlDatagram
  rw [he]
  rfl

theorem frameSeq_packetEcho {seq sendMonoNs : ℕ} (hlt : seq < 2 ^ 64) :
    frameSeq (packetEcho spec seq sendMonoNs) = some seq := by
  unfold frameSeq
  rw [List.take_of_length_le (length_packetEcho spec seq sendMonoNs).le, packetEcho, packetHeader,
    DataHeader.decode_encode_new]
  exact congrArg some (UInt64.toNat_ofNat_of_lt' hlt)

/-! ## The exchange -/

/-- The client's handshake was successful. -/
def UdpClient.Entered (c : UdpClient) : Prop :=
  c = .ready ∨ ∃ w, c = .data w

/-- What each side has sent to the other. -/
structure UdpExchange (token : Option String) (spec : StreamRunSpec) (me : Peer) (t : List UdpObs)
    (s : UdpState Peer) : Prop where
  toServer : ∀ frame ∈ s.toServer, frame = helloDatagram sha256 spec ∨
    ∃ seq time sendMonoNs, (seq, time) ∈ sentPackets t ∧
      frame = packetEcho spec seq sendMonoNs ++ List.replicate spec.payloadBytes.toNat 0
  toClient : ∀ frame ∈ s.toClient,
    (frame = encodeControlDatagram (helloAnswer sha256 token spec) ∧
      (acceptsHello sha256 token spec = true → me ∈ s.authorized)) ∨
    ∃ seq time sendMonoNs, (seq, time) ∈ sentPackets t ∧ frame = packetEcho spec seq sendMonoNs
  socket : ∀ frame ∈ s.socket, frame ∈ s.toClient
  entered : s.client.Entered → acceptsHello sha256 token spec = true ∧ me ∈ s.authorized
  acked : ∀ e ∈ waitEvents t, e.recvMonoNs ≠ none →
    ∃ sendMonoNs, packetEcho spec e.seq sendMonoNs ∈ s.toClient

/-- What the server does with a datagram. -/
theorem onServe_cases (token : Option String) (me peer : Peer) (frame : List UInt8) (sendOk : Bool)
    (s : UdpState Peer) :
    (onServe sha256 token me peer frame sendOk s).toServer = s.toServer ∧
      (∀ p ∈ s.authorized, p ∈ (onServe sha256 token me peer frame sendOk s).authorized) ∧
      (authorizes sha256 token (frame.take (64 * 1024)) = true →
        peer ∈ (onServe sha256 token me peer frame sendOk s).authorized) ∧
      ((onServe sha256 token me peer frame sendOk s).toClient = s.toClient ∨ peer = me ∧ ∃ reply,
        answer sha256 token (peer ∈ s.authorized) (frame.take (64 * 1024)) = some reply ∧
        (onServe sha256 token me peer frame sendOk s).toClient = s.toClient ++ [reply.bytes]) := by
  unfold onServe
  rw [handleDatagram_eq]
  have hgrow : ∀ p ∈ s.authorized, p ∈ (if authorizes sha256 token (frame.take (64 * 1024)) then
      insert peer s.authorized else s.authorized) := by
    intro p hp
    split_ifs
    · exact Finset.mem_insert_of_mem hp
    · exact hp
  have hpeer : authorizes sha256 token (frame.take (64 * 1024)) = true →
      peer ∈ (if authorizes sha256 token (frame.take (64 * 1024)) then
        insert peer s.authorized else s.authorized) := by
    intro h
    rw [if_pos h]
    exact Finset.mem_insert_self _ _
  dsimp only
  split
  · exact ⟨rfl, hgrow, hpeer, .inl rfl⟩
  · rename_i reply hreply
    cases sendOk with
    | false => exact ⟨rfl, hgrow, hpeer, .inl rfl⟩
    | true =>
      by_cases hme : peer = me
      · exact ⟨rfl, hgrow, hpeer, .inr ⟨hme, reply, hreply, if_pos hme⟩⟩
      · exact ⟨rfl, hgrow, hpeer, .inl (if_neg hme)⟩

namespace UdpExchange

/-- The client and its socket change, and nothing is sent. -/
theorem client (h : UdpExchange sha256 token spec me t s) (hserver : s'.toServer = s.toServer)
    (hbox : s'.toClient = s.toClient) (hauthorized : s'.authorized = s.authorized)
    (hsocket : ∀ frame ∈ s'.socket, frame ∈ s.toClient)
    (hentered : s'.client.Entered → acceptsHello sha256 token spec = true ∧ me ∈ s.authorized)
    (hacked : ∀ e ∈ waitEvents o, e.recvMonoNs ≠ none →
      ∃ sendMonoNs, packetEcho spec e.seq sendMonoNs ∈ s.toClient) :
    UdpExchange sha256 token spec me (t ++ o) s' := by
  have hsent : ∀ p ∈ sentPackets t, p ∈ sentPackets (t ++ o) := fun p hp => by
    rw [sentPackets_append]
    exact List.mem_append_left _ hp
  refine ⟨fun frame hframe => ?_, fun frame hframe => ?_, hbox ▸ hsocket, hauthorized ▸ hentered,
    fun e he hrecv => ?_⟩
  · rw [hserver] at hframe
    exact (h.toServer frame hframe).imp_right fun ⟨seq, time, m, hmem, heq⟩ =>
      ⟨seq, time, m, hsent _ hmem, heq⟩
  · rw [hbox] at hframe
    rw [hauthorized]
    exact (h.toClient frame hframe).imp_right fun ⟨seq, time, m, hmem, heq⟩ =>
      ⟨seq, time, m, hsent _ hmem, heq⟩
  · rw [waitEvents_append] at he
    rw [hbox]
    exact (List.mem_append.mp he).elim (h.acked e · hrecv) (hacked e · hrecv)

/-- The client sends something. -/
theorem sends (h : UdpExchange sha256 token spec me t s) {c : UdpClient}
    {frames : List (List UInt8)} (hevents : waitEvents o = [])
    (hentered : c.Entered → s.client.Entered)
    (hframes : ∀ frame ∈ frames, frame = helloDatagram sha256 spec ∨
      ∃ seq time sendMonoNs, (seq, time) ∈ sentPackets (t ++ o) ∧
        frame = packetEcho spec seq sendMonoNs ++ List.replicate spec.payloadBytes.toNat 0) :
    UdpExchange sha256 token spec me (t ++ o)
      { s with client := c, toServer := s.toServer ++ frames } := by
  have hquiet : UdpExchange sha256 token spec me (t ++ o) { s with client := c } := by
    refine h.client sha256 rfl rfl rfl h.socket (fun hc => h.entered (hentered hc)) ?_
    rw [hevents]
    exact nofun
  refine ⟨fun frame hframe => ?_, hquiet.toClient, hquiet.socket, hquiet.entered, hquiet.acked⟩
  exact (List.mem_append.mp hframe).elim (hquiet.toServer frame) (hframes frame)

/-- The server takes a datagram of the client. -/
theorem serve (h : UdpExchange sha256 token spec me t s) {frame : List UInt8}
    (hframe : frame ∈ s.toServer) (sendOk : Bool) :
    UdpExchange sha256 token spec me t (onServe sha256 token me me frame sendOk s) := by
  obtain ⟨-, hclient, hsocket⟩ := onServe_client sha256 token me me frame sendOk s
  obtain ⟨hserver, hgrow, hauthorizes, hbox⟩ := onServe_cases sha256 token me me frame sendOk s
  have hkept : ∀ g ∈ s.toClient,
      (g = encodeControlDatagram (helloAnswer sha256 token spec) ∧
        (acceptsHello sha256 token spec = true →
          me ∈ (onServe sha256 token me me frame sendOk s).authorized)) ∨
      ∃ seq time sendMonoNs, (seq, time) ∈ sentPackets t ∧ g = packetEcho spec seq sendMonoNs :=
    fun g hg => (h.toClient g hg).imp_left fun ⟨heq, hme⟩ => ⟨heq, fun hacc => hgrow _ (hme hacc)⟩
  have hsub : ∀ g ∈ s.toClient, g ∈ (onServe sha256 token me me frame sendOk s).toClient := by
    intro g hg
    rcases hbox with hbox | ⟨-, reply, -, hbox⟩ <;> rw [hbox]
    · exact hg
    · exact List.mem_append_left _ hg
  refine ⟨by rw [hserver]; exact h.toServer, fun g hg => ?_,
    fun g hg => hsub g (h.socket g (hsocket ▸ hg)), fun hc => ?_, fun e he hrecv => ?_⟩
  · rcases hbox with hbox | ⟨-, reply, hreply, hbox⟩
    · exact hkept g (hbox ▸ hg)
    · rw [hbox] at hg
      rcases List.mem_append.mp hg with hg | hg
      · exact hkept g hg
      · rw [List.mem_singleton.mp hg]
        rcases h.toServer frame hframe with rfl | ⟨seq, time, m, hmem, rfl⟩
        · rw [answer_helloDatagram] at hreply
          rw [authorizes_helloDatagram] at hauthorizes
          obtain rfl := Option.some.inj hreply
          exact Or.inl ⟨rfl, hauthorizes⟩
        · rw [answer_packet sha256 _ hreply]
          exact Or.inr ⟨seq, time, m, hmem, rfl⟩
  · obtain ⟨hacc, hme⟩ := h.entered (hclient ▸ hc)
    exact ⟨hacc, hgrow _ hme⟩
  · obtain ⟨m, hm⟩ := h.acked e he hrecv
    exact ⟨m, hsub _ hm⟩

/-- The server takes a datagram of another peer. -/
theorem serveOther (h : UdpExchange sha256 token spec me t s) {peer : Peer} (hne : peer ≠ me)
    (frame : List UInt8) (sendOk : Bool) :
    UdpExchange sha256 token spec me t (onServe sha256 token me peer frame sendOk s) := by
  obtain ⟨-, hclient, hsocket⟩ := onServe_client sha256 token me peer frame sendOk s
  obtain ⟨hserver, hgrow, -, hbox⟩ := onServe_cases sha256 token me peer frame sendOk s
  have hbox := hbox.resolve_right fun h => hne h.1
  refine ⟨by rw [hserver]; exact h.toServer, fun g hg => ?_, fun g hg => ?_, fun hc => ?_, ?_⟩
  · rw [hbox] at hg
    exact (h.toClient g hg).imp_left fun ⟨heq, hme⟩ => ⟨heq, fun hacc => hgrow _ (hme hacc)⟩
  · rw [hbox]
    exact h.socket g (hsocket ▸ hg)
  · obtain ⟨hacc, hme⟩ := h.entered (hclient ▸ hc)
    exact ⟨hacc, hgrow _ hme⟩
  · rw [hbox]
    exact h.acked

/-- A datagram that acknowledges the packet that waits is its echo. -/
theorem echo (h : UdpExchange sha256 token spec me t s) {clock : ℕ} {w : WaitState}
    (hlog : WaitLog spec clock t w) (hlt : w.seq < 2 ^ 64) {sendMonoNs deadline : ℕ}
    {measured : Bool} (hpc : w.pc = .recv sendMonoNs measured deadline) {frame : List UInt8}
    (hframe : frame ∈ s.toClient) (hcarries : Carries w.seq frame) :
    ∃ m, frame = packetEcho spec w.seq m := by
  rcases h.toClient frame hframe with ⟨rfl, -⟩ | ⟨seq, time, m, hmem, rfl⟩
  · exact absurd (hcarries.symm.trans (frameSeq_helloAnswer sha256)) nofun
  · have hle : seq ≤ w.seq := hlog.seq_le hpc hmem
    have hseq : some w.seq = some seq :=
      hcarries.symm.trans (frameSeq_packetEcho (hle.trans_lt hlt))
    exact ⟨m, by rw [Option.some.inj hseq]⟩

/-- Each step keeps the exchange. -/
theorem step (h : UdpExchange sha256 token spec me t s)
    (hr : (udpSystem sha256 token spec me).Reach t s)
    (hmove : UdpMove sha256 token spec me s a s' o) :
    UdpExchange sha256 token spec me (t ++ o) s' := by
  cases hmove with
  | wait n => exact h.client sha256 rfl rfl rfl h.socket h.entered nofun
  | tick client frames o htick =>
    cases hclient : s.client with
    | hello =>
      rw [hclient] at htick
      cases udpTick_cases sha256 htick
      exact h.sends sha256 rfl (by simp [UdpClient.Entered])
        fun frame hframe => Or.inl (List.mem_singleton.mp hframe)
    | arm =>
      rw [hclient] at htick
      cases udpTick_cases sha256 htick
      exact h.sends sha256 rfl (by simp [UdpClient.Entered]) nofun
    | ready =>
      rw [hclient] at htick
      cases udpTick_cases sha256 htick
      exact h.sends sha256 rfl (fun _ => Or.inl hclient) nofun
    | data w =>
      rw [hclient] at htick
      cases udpTick_cases sha256 htick with
      | sent _ m hpc =>
        refine h.sends sha256 rfl (fun _ => Or.inr ⟨w, hclient⟩) fun frame hframe => Or.inr ?_
        rw [List.mem_singleton.mp hframe, packetDatagram_eq, sentPackets_append]
        exact ⟨w.seq, s.clock, m, List.mem_append_right _ List.mem_cons_self, rfl⟩
      | loop _ w' _ => exact h.sends sha256 rfl (fun _ => Or.inr ⟨w, hclient⟩) nofun
    | awaitAck _ | failed =>
      rw [hclient] at htick
      cases htick
  | helloFails _ | ackFails _ _ _ =>
    exact h.client sha256 rfl rfl rfl h.socket (by simp [UdpClient.Entered]) nofun
  | sendFails w _ hclient _ =>
    exact h.client sha256 rfl rfl rfl h.socket (fun _ => h.entered (Or.inr ⟨w, hclient⟩)) nofun
  | ack _ frame socket hclient hsocket =>
    have hframe : frame ∈ s.toClient := h.socket frame (by rw [hsocket]; exact List.mem_cons_self)
    refine h.client sha256 rfl rfl rfl (fun g hg => h.socket g ?_) (fun hc => ?_) nofun
    · rw [hsocket]
      exact List.mem_cons_of_mem _ hg
    · rcases h.toClient frame hframe with ⟨rfl, hme⟩ | ⟨seq, _, m, -, rfl⟩
      · dsimp only at hc
        rw [onAck_helloAnswer] at hc
        split_ifs at hc with hacc
        · exact ⟨hacc, hme hacc⟩
        · simp [UdpClient.Entered] at hc
      · dsimp only at hc
        rw [onAck_packetEcho] at hc
        simp [UdpClient.Entered] at hc
  | took w m b d frame socket hclient hpc hsocket =>
    have hframe : frame ∈ s.toClient := h.socket frame (by rw [hsocket]; exact List.mem_cons_self)
    have hlog := ((waitLog spec).and (waitSeq_lt spec)).udp_reach sha256 hr
    obtain ⟨w', hw', hlog, hlt⟩ := hlog.resolve_right fun hdata => hdata.1 w hclient
    obtain rfl := UdpClient.data.inj (hclient.symm.trans hw')
    refine h.client sha256 rfl rfl rfl (fun g hg => h.socket g ?_)
      (fun _ => h.entered (Or.inr ⟨w, hclient⟩)) fun e he hrecv => ?_
    · rw [hsocket]
      exact List.mem_cons_of_mem _ hg
    · have hevent : .event e ∈ (onEcho spec w m b frame s.clock).2 := by
        obtain ⟨ob, hob, heq⟩ := List.mem_filterMap.mp he
        cases ob <;> first | (obtain rfl := Option.some.inj heq; exact hob) | cases heq
      obtain ⟨hseq, -, hcarries⟩ := onEcho_acked hevent hrecv
      obtain ⟨stamp, heq⟩ := h.echo sha256 hlog hlt hpc hframe hcarries
      exact ⟨stamp, by rw [hseq, ← heq]; exact hframe⟩
  | lost _ w _ _ _ hclient _ =>
    refine h.client sha256 rfl rfl rfl h.socket (fun _ => h.entered (Or.inr ⟨w, hclient⟩))
      fun e he hrecv => absurd ?_ hrecv
    rw [List.mem_singleton.mp he]
    rfl
  | serve i frame sendOk hframe _ =>
    rw [List.append_nil]
    exact h.serve sha256 (List.mem_of_getElem? hframe) sendOk
  | serveOther peer frame sendOk _ hpeer =>
    rw [List.append_nil]
    exact h.serveOther sha256 hpeer frame sendOk
  | arrive i frame hframe =>
    refine h.client sha256 rfl rfl rfl (fun g hg => ?_) h.entered nofun
    rcases List.mem_append.mp hg with hg | hg
    · exact h.socket g hg
    · rw [List.mem_singleton.mp hg]
      exact List.mem_of_getElem? hframe

end UdpExchange

theorem udpExchange_reach (hr : (udpSystem sha256 token spec me).Reach t s) :
    UdpExchange sha256 token spec me t s :=
  hr.invariant (I := UdpExchange sha256 token spec me)
    ⟨List.forall_mem_nil _, List.forall_mem_nil _, List.forall_mem_nil _,
      by simp [udpSystem, UdpClient.Entered], List.forall_mem_nil _⟩
    fun hr h hs => h.step sha256 hr (udpStep_move sha256 hs)

/-- In every run of the client and the server, whatever the network between them does and whatever
other peers send : a packet that is reported as received is one that the client has sent and whose
echo the server has sent back, and if the client has sent a packet, then its `Hello` has the hash of
the server's token, if it has one, and the server has authorized it. -/
theorem udp_exchange (hr : (udpSystem sha256 token spec me).Reach t s) :
    (∀ e, .event e ∈ t → e.recvMonoNs ≠ none → (∃ time, .sent e.seq time ∈ t) ∧
      ∃ sendMonoNs, packetEcho spec e.seq sendMonoNs ∈ s.toClient) ∧
    ((∃ seq time, .sent seq time ∈ t) → me ∈ s.authorized ∧
      ∀ secret, token = some secret → spec.token.map (hashToken sha256) =
        some (hashToken sha256 secret)) := by
  have hexchange := udpExchange_reach sha256 hr
  rcases (waitLog spec).udp_reach sha256 hr with ⟨w, hclient, hlog⟩ | ⟨-, ht⟩
  · refine ⟨fun e he hrecv => ?_, fun _ => ?_⟩
    · have hevent : e ∈ waitEvents t := List.mem_filterMap.mpr ⟨_, he, rfl⟩
      refine ⟨?_, hexchange.acked e hevent hrecv⟩
      obtain ⟨p, hp, hreported⟩ := hlog.reported_of_event hevent
      obtain ⟨ob, hob, heq⟩ := List.mem_filterMap.mp hp
      cases ob with
      | sent seq time =>
        obtain rfl := Option.some.inj heq
        exact ⟨time, by rw [hreported.seq]; exact hob⟩
      | _ => cases heq
    · obtain ⟨hacc, hme⟩ := hexchange.entered (Or.inr ⟨w, hclient⟩)
      refine ⟨hme, fun secret hsecret => ?_⟩
      rw [acceptsHello, hsecret] at hacc
      exact (tokenMatches_some sha256).mp hacc
  · have hnone : ∀ ob ∈ t, ob.event? = none ∧ ob.sent? = none := by
      intro ob hob
      obtain ⟨_, _, rfl⟩ := ht ob hob
      exact ⟨rfl, rfl⟩
    exact ⟨fun e he => (nomatch (hnone _ he).1), fun ⟨_, _, hsent⟩ => nomatch (hnone _ hsent).2⟩

end Udp

/-- The second packet is echoed. -/
theorem udp_exchange_oneLost : ∃ t s, (udpSystem noHash none udpSpec ()).Reach t s ∧
    (∃ sendMonoNs, packetEcho udpSpec 2 sendMonoNs ∈ s.toClient) ∧ () ∈ s.authorized := by
  obtain ⟨⟨s, t⟩, hexec, rfl⟩ := Option.map_eq_some_iff.mp oneLost_exec
  have hreach := ((reach_loopStart noHash udpSpec ()).execWhile hexec).reach
  obtain ⟨hacked, hsent⟩ := udp_exchange noHash hreach
  exact ⟨_, s, hreach, (hacked ⟨0, 2, 0, 5, some 6, true⟩ (by simp) nofun).2,
    (hsent ⟨1, 0, by simp⟩).1⟩

end Ipfusch
