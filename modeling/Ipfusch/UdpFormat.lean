import Ipfusch.UdpSystem

/-!
# Control and data datagrams

Both kinds of datagrams go through one socket, and no byte says which kind one is. A data
datagram starts with the magic, a control datagram with `ctrlPrefix`, and these differ
(`not_prefix_encode`).

`udpDatagrams` : neither end takes a datagram of one kind for one of the other, whatever
follows its first bytes, and both ends read the control messages that the other writes.
-/

namespace Ipfusch

/-- The frame that `control_handshake_udp` puts together. -/
def clientFrame (msg : ControlMessage) : List UInt8 :=
  ctrlPrefix ++ msg.serialize

/-- The client's `Hello` is such a frame. -/
theorem udpTick_hello (sha256 : List UInt8 → Digest) (spec : StreamRunSpec) (now : ℕ) :
    udpTick sha256 spec now .hello =
      some (.arm, [clientFrame (clientHello sha256 spec.streamId spec)], []) :=
  rfl

/-! ## Which kind a datagram is -/

theorem decodeControlDatagram_of_data {h : DataHeader} (hmagic : h.magic = dataMagic)
    (payload : List UInt8) : decodeControlDatagram (h.encode ++ payload) = none :=
  if_neg (not_prefix_encode hmagic payload)

theorem decodeUdpControl_of_data {h : DataHeader} (hmagic : h.magic = dataMagic)
    (payload : List UInt8) : decodeUdpControl (h.encode ++ payload) = none :=
  if_neg (not_prefix_encode hmagic payload)

/-- Both ends read a message from its frame. -/
theorem decode_clientFrame {msg : ControlMessage} (h : msg.serialize.length < 2 ^ 64) :
    decodeControlDatagram (clientFrame msg) = some msg ∧
      decodeUdpControl (clientFrame msg) = some msg := by
  have hdecode : ControlMessage.deserialize ((clientFrame msg).drop ctrlPrefix.length) =
      some msg := by
    rw [clientFrame, List.drop_left,
      ControlMessage.deserialize_serialize (ControlMessage.fits_of_length h)]
  have hprefix : ctrlPrefix <+: clientFrame msg := List.prefix_append _ _
  constructor
  · rw [decodeControlDatagram, if_pos hprefix, hdecode]
  · rw [decodeUdpControl, if_pos hprefix, hdecode]

/-! ## What each end does with it -/

section Server

variable (sha256 : List UInt8 → Digest)

variable {Peer : Type*} [DecidableEq Peer]

/-- The first datagram is handled, and the others unless its answer cannot be sent. -/
theorem runUdpServer_cons_fst (token : Option String) (authorized : Finset Peer)
    (a : Arrival Peer) (arrivals : List (Arrival Peer)) : ∃ rest,
    (runUdpServer sha256 token authorized (a :: arrivals)).1 =
        (a.peer, answer sha256 token (a.peer ∈ authorized) a.frame) :: rest ∧
      (rest = (runUdpServer sha256 token (authorize sha256 token authorized a) arrivals).1 ∨
        rest = []) := by
  rw [runUdpServer_cons]
  cases answer sha256 token (a.peer ∈ authorized) a.frame with
  | none => exact ⟨_, rfl, .inl rfl⟩
  | some reply =>
    dsimp only
    split_ifs
    · exact ⟨_, rfl, .inl rfl⟩
    · exact ⟨_, rfl, .inr rfl⟩

/-- A datagram is handled with the peers that are authorized then. -/
theorem runUdpServer_handles {token : Option String} {peer : Peer} {reply : Option Reply} :
    ∀ {arrivals : List (Arrival Peer)} {authorized : Finset Peer} {n : ℕ},
      (runUdpServer sha256 token authorized arrivals).1[n]? = some (peer, reply) →
      ∃ a known, arrivals[n]? = some a ∧ peer = a.peer ∧ reply = answer sha256 token known a.frame
  | [], authorized, n, h => by simp [runUdpServer] at h
  | a :: arrivals, authorized, n, h => by
    obtain ⟨rest, hrun, hrest⟩ := runUdpServer_cons_fst sha256 token authorized a arrivals
    rw [hrun] at h
    cases n with
    | zero =>
      obtain ⟨rfl, rfl⟩ := Prod.mk.inj (Option.some.inj h)
      exact ⟨a, _, rfl, rfl, rfl⟩
    | succ n =>
      rw [List.getElem?_cons_succ] at h
      rcases hrest with rfl | rfl
      · have ih := runUdpServer_handles h
        exact ih
      · cases h

omit [DecidableEq Peer] in
/-- What starts like a control datagram is not echoed. -/
theorem answer_of_ctrlPrefix {token : Option String} {known : Bool} {frame : List UInt8}
    (h : ctrlPrefix <+: frame) (header : List UInt8) :
    answer sha256 token known frame ≠ some (.echo header) := by
  obtain ⟨e, he⟩ := decode_of_ctrlPrefix h
  unfold answer
  cases decodeControlDatagram frame with
  | some msg => cases msg <;> simp
  | none =>
    dsimp only
    rw [he]
    split_ifs <;> simp

end Server

/-- What starts like a control datagram is no echo. -/
theorem onEcho_of_ctrlPrefix {spec : StreamRunSpec} {s : WaitState} {sendMonoNs now : ℕ}
    {measured : Bool} {frame : List UInt8} (h : ctrlPrefix <+: frame) {e : PacketEvent}
    (he : .event e ∈ (onEcho spec s sendMonoNs measured frame now).2) : e.recvMonoNs = none := by
  obtain ⟨err, herr⟩ := decode_of_ctrlPrefix h
  unfold onEcho onHeader at he
  dsimp only at he
  rw [herr] at he
  split_ifs at he
  · simp at he
  · obtain rfl : e = s.report spec sendMonoNs measured none := by simpa using he
    rfl

/-- Control and data datagrams are told apart by both ends, and both ends speak the same control
format. (A vector has less than `2 ^ 64` bytes.) -/
theorem udpDatagrams (sha256 : List UInt8 → Digest) (Peer : Type) [DecidableEq Peer] :
    (∀ sessionId streamId seq sendMonoNs payloadLen payload,
      decodeControlDatagram
          ((DataHeader.new sessionId streamId seq sendMonoNs payloadLen).encode ++ payload) = none ∧
        decodeUdpControl
          ((DataHeader.new sessionId streamId seq sendMonoNs payloadLen).encode ++ payload) =
            none) ∧
    (∀ msg, clientFrame msg = encodeControlDatagram msg ∧
      (msg.serialize.length < 2 ^ 64 →
        decodeControlDatagram (clientFrame msg) = some msg ∧
          decodeUdpControl (clientFrame msg) = some msg)) ∧
    ∀ frame, ctrlPrefix <+: frame →
      (∃ e, DataHeader.decode (frame.take dataHeaderSize) = .error e) ∧
      (∀ token authorized (arrivals : List (Arrival Peer)) (n : ℕ) (a : Arrival Peer),
        arrivals[n]? = some a → a.datagram.bytes = frame → ∀ peer header,
          (runUdpServer sha256 token authorized arrivals).1[n]? ≠
            some (peer, some (.echo header))) ∧
      ∀ spec s sendMonoNs measured now e,
        .event e ∈ (onEcho spec s sendMonoNs measured frame now).2 → e.recvMonoNs = none := by
  refine ⟨fun sessionId streamId seq sendMonoNs payloadLen payload => ?_, fun msg => ?_,
    fun frame hframe => ⟨decode_of_ctrlPrefix hframe, ?_, ?_⟩⟩
  · exact ⟨decodeControlDatagram_of_data rfl payload, decodeUdpControl_of_data rfl payload⟩
  · exact ⟨rfl, decode_clientFrame⟩
  · rintro token authorized arrivals n a ha rfl peer header hn
    obtain ⟨a', known, ha', -, hreply⟩ := runUdpServer_handles sha256 hn
    obtain rfl := Option.some.inj (ha.symm.trans ha')
    rw [Arrival.frame_eq] at hreply
    exact answer_of_ctrlPrefix sha256 hframe header hreply.symm
  · intro spec s sendMonoNs measured now e
    exact onEcho_of_ctrlPrefix hframe

end Ipfusch
