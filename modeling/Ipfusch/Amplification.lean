import Ipfusch.UdpServer

/-!
# What the UDP server sends for what it receives

A datagram is answered by an accepting `Ack` of 26 bytes, a rejecting `Ack` of 60 bytes, an echo of
a header, or not at all. The shortest `Hello` has 35 bytes, so only a rejecting `Ack` can be longer
than the datagram it answers.

`udpServer_balance` : at every point of a run, a peer has been sent no more than it has sent, but
for 25 bytes for each rejection, and in any case no more than 12 bytes for 7.
-/

set_option linter.unusedSectionVars false

namespace Ipfusch

/-! ## The lengths of datagrams -/

/-- A control datagram contains its message. -/
theorem length_of_decodeControlDatagram {frame : List UInt8} {msg : ControlMessage}
    (h : decodeControlDatagram frame = some msg) :
    ctrlPrefix.length + msg.serialize.length ≤ frame.length := by
  unfold decodeControlDatagram at h
  split_ifs at h with hprefix
  obtain ⟨⟨m, rest⟩, hdec, rfl⟩ := Option.map_eq_some_iff.mp h
  have hbytes := congrArg List.length (ControlMessage.bincode.sound hdec).2
  rw [List.length_append, List.length_drop] at hbytes
  have hle := hprefix.length_le
  change ctrlPrefix.length + (ControlMessage.bincode.encode m).length ≤ frame.length
  omega

theorem length_hello (version : UInt16) (clientName : String) (tokenHash : Option Digest)
    (capabilities : List String) :
    23 ≤ (ControlMessage.hello version clientName tokenHash capabilities).serialize.length := by
  cases tokenHash <;>
  · simp [ControlMessage.serialize, ControlMessage.bincode, ControlMessage.fieldsEquiv,
      ControlMessage.fieldsCodec]
    omega

theorem length_accept : (Reply.control (.ack 0 true none)).bytes.length = 26 := by
  decide +kernel

theorem length_reject :
    (Reply.control (.ack 0 false (some "token or protocol rejected"))).bytes.length = 60 := by
  decide +kernel

/-- A rejecting `Ack`. -/
def Reply.rejects : Reply → Bool
  | .control (.ack _ accepted _) => !accepted
  | _ => false

/-- A reply of at most the bytes of the datagram, or a rejection, and at most 12 bytes for 7. -/
structure Reply.Bounded (reply : Reply) (received : ℕ) : Prop where
  balance : reply.bytes.length ≤ received + if reply.rejects then 25 else 0
  ratio : 7 * reply.bytes.length ≤ 12 * received

theorem bounded_accept {received : ℕ} (h : 35 ≤ received) :
    (Reply.control (.ack 0 true none)).Bounded received := by
  have hlen := length_accept
  exact ⟨by omega, by omega⟩

theorem bounded_reject {received : ℕ} (h : 35 ≤ received) :
    (Reply.control (.ack 0 false (some "token or protocol rejected"))).Bounded received := by
  have hlen := length_reject
  refine ⟨?_, by omega⟩
  rw [hlen, Reply.rejects, Bool.not_false, if_pos rfl]
  omega

section Balance

variable (sha256 : List UInt8 → Digest)

variable {Peer : Type*} [DecidableEq Peer]

/-- What a datagram is answered with. -/
theorem bounded_answer {token : Option String} {known : Bool} {frame : List UInt8} {reply : Reply}
    (h : answer sha256 token known frame = some reply) : reply.Bounded frame.length := by
  unfold answer at h
  cases hd : decodeControlDatagram frame with
  | some msg =>
    rw [hd] at h
    cases msg with
    | hello version clientName tokenHash capabilities =>
      have hframe := length_of_decodeControlDatagram hd
      have hhello := length_hello version clientName tokenHash capabilities
      have hprefix : ctrlPrefix.length = 12 := by decide
      obtain rfl := Option.some.inj h
      cases authorizes sha256 token frame with
      | true => exact bounded_accept (by omega)
      | false => exact bounded_reject (by omega)
    | _ => cases h
  | none =>
    rw [hd] at h
    dsimp only at h
    split_ifs at h
    split at h
    · cases h
    · obtain rfl := Option.some.inj h
      have hlen : (Reply.echo (frame.take dataHeaderSize)).bytes.length ≤ frame.length :=
        List.length_take_le' _ _
      exact ⟨by omega, by omega⟩

/-! ## The balance of a peer -/

/-- The bytes of the replies to a peer, those whose send fails included. -/
def sentTo (p : Peer) (sent : List (Peer × Option Reply)) : ℕ :=
  ((repliesTo p sent).map fun reply => reply.bytes.length).sum

/-- The bytes of the datagrams of a peer. -/
def receivedFrom (p : Peer) (arrivals : List (Arrival Peer)) : ℕ :=
  ((ofPeer p arrivals).map fun a => a.datagram.bytes.length).sum

/-- The rejections among the replies to a peer. -/
def rejectionsTo (p : Peer) (sent : List (Peer × Option Reply)) : ℕ :=
  (repliesTo p sent).countP Reply.rejects

/-- The peer was sent no more than it has sent, but for 25 bytes for each rejection, and no more
than 12 bytes for 7. -/
structure Balanced (p : Peer) (sent : List (Peer × Option Reply))
    (arrivals : List (Arrival Peer)) : Prop where
  balance : sentTo p sent ≤ receivedFrom p arrivals + 25 * rejectionsTo p sent
  ratio : 7 * sentTo p sent ≤ 12 * receivedFrom p arrivals

theorem balanced_nil (p : Peer) (arrivals : List (Arrival Peer)) : Balanced p [] arrivals :=
  ⟨Nat.zero_le _, Nat.zero_le _⟩

/-- A turn of the loop keeps the balance. -/
theorem Balanced.cons {p : Peer} {sent : List (Peer × Option Reply)}
    {arrivals : List (Arrival Peer)} (h : Balanced p sent arrivals) {a : Arrival Peer}
    {r : Option Reply} (hr : ∀ reply, r = some reply → reply.Bounded a.datagram.bytes.length) :
    Balanced p ((a.peer, r) :: sent) (a :: arrivals) := by
  obtain ⟨hbalance, hratio⟩ := h
  by_cases hp : a.peer = p
  · subst hp
    have hreceived : receivedFrom a.peer (a :: arrivals) =
        a.datagram.bytes.length + receivedFrom a.peer arrivals := by
      rw [receivedFrom, ofPeer_cons_self, List.map_cons, List.sum_cons, ← receivedFrom]
    cases r with
    | none =>
      have hreplies : repliesTo a.peer ((a.peer, none) :: sent) = repliesTo a.peer sent :=
        repliesTo_cons_self a.peer none sent
      constructor <;> rw [hreceived, sentTo, hreplies, ← sentTo]
      · rw [rejectionsTo, hreplies, ← rejectionsTo]
        omega
      · omega
    | some reply =>
      have hreplies : repliesTo a.peer ((a.peer, some reply) :: sent) =
          reply :: repliesTo a.peer sent := repliesTo_cons_self a.peer (some reply) sent
      have hsent : sentTo a.peer ((a.peer, some reply) :: sent) =
          reply.bytes.length + sentTo a.peer sent := by
        rw [sentTo, hreplies, List.map_cons, List.sum_cons, ← sentTo]
      obtain ⟨hone, hfactor⟩ := hr reply rfl
      constructor <;> rw [hreceived, hsent]
      · rw [rejectionsTo, hreplies, List.countP_cons, ← rejectionsTo]
        split_ifs at hone ⊢ <;> omega
      · omega
  · have hsent : sentTo p ((a.peer, r) :: sent) = sentTo p sent := by
      rw [sentTo, repliesTo_cons_of_ne hp, ← sentTo]
    have hreceived : receivedFrom p (a :: arrivals) = receivedFrom p arrivals := by
      rw [receivedFrom, ofPeer_cons_of_ne hp, ← receivedFrom]
    have hrejections : rejectionsTo p ((a.peer, r) :: sent) = rejectionsTo p sent := by
      rw [rejectionsTo, repliesTo_cons_of_ne hp, ← rejectionsTo]
    exact ⟨by rwa [hsent, hreceived, hrejections], by rwa [hsent, hreceived]⟩

/-- At every point of a run each peer is in balance. -/
theorem balanced_run (token : Option String) (p : Peer) :
    ∀ (arrivals : List (Arrival Peer)) (authorized : Finset Peer) (n : ℕ),
      Balanced p ((runUdpServer sha256 token authorized arrivals).1.take n) (arrivals.take n)
  | _, _, 0 => balanced_nil p _
  | [], _, n + 1 => balanced_nil p _
  | a :: arrivals, authorized, n + 1 => by
    have ih := balanced_run token p arrivals (authorize sha256 token authorized a) n
    have hbound : ∀ reply, answer sha256 token (a.peer ∈ authorized) a.frame = some reply →
        reply.Bounded a.datagram.bytes.length := by
      intro reply h
      rw [← a.frame_eq]
      exact bounded_answer sha256 h
    rw [runUdpServer_cons]
    cases hr : answer sha256 token (a.peer ∈ authorized) a.frame with
    | none => exact ih.cons fun reply h => by cases h
    | some reply =>
      rw [hr] at hbound
      cases a.sendOk with
      | true => exact ih.cons hbound
      | false =>
        have hnil : Balanced p (List.take n []) (arrivals.take n) := by
          rw [List.take_nil]
          exact balanced_nil p _
        exact hnil.cons hbound

/-- At every point of a run and for every peer, the bytes sent to the peer are at most the bytes
it has sent and 25 for each rejection of a `Hello`, and at most 12 for 7 of its bytes. -/
theorem udpServer_balance (token : Option String) (arrivals : List (Arrival Peer)) (p : Peer)
    (n : ℕ) :
    let sent := (runUdpServer sha256 token ∅ arrivals).1.take n
    sentTo p sent ≤ receivedFrom p (arrivals.take n) + 25 * rejectionsTo p sent ∧
      7 * sentTo p sent ≤ 12 * receivedFrom p (arrivals.take n) := by
  obtain ⟨hbalance, hratio⟩ := balanced_run sha256 token p arrivals ∅ n
  exact ⟨hbalance, hratio⟩

end Balance

/-- The shortest `Hello`, without a token. -/
def shortHello : Datagram where
  bytes := encodeControlDatagram (.hello protocolVersion "" none [])
  short := by decide +kernel

/-- A server with a token answers 35 bytes without it with 60. -/
theorem not_balanced_shortHello :
    ¬∀ n, sentTo 0 ((runUdpServer noHash (some "token") ∅ [⟨0, shortHello, true⟩]).1.take n) ≤
      receivedFrom 0 ([(⟨0, shortHello, true⟩ : Arrival ℕ)].take n) := by
  intro h
  have hsent : sentTo 0 ((runUdpServer noHash (some "token") ∅ [⟨0, shortHello, true⟩]).1.take 1) =
      60 := by
    decide +kernel
  have hreceived : receivedFrom 0 ([(⟨0, shortHello, true⟩ : Arrival ℕ)].take 1) = 35 := by
    decide +kernel
  have h1 := h 1
  omega

end Ipfusch
