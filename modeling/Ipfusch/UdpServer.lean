import Ipfusch.Handshake
import Mathlib.Data.Finset.Insert

/-!
# The UDP server

`run_udp_server` serves all peers from one loop. `handleDatagram` is its body : a `Hello`
is answered with an `Ack` and may authorize its sender, and a data header is echoed, to
authorized peers only if there is a token. `runUdpServer` is the loop over datagrams that
arrive in any order from any peers, each with the outcome of the send that answers it. A
failed send ends the loop.

`udpServer_authorizes` : as long as sends succeed, exactly the peers that sent a `Hello`
with the hash of the token are served.

`undisturbed_iff` : what a peer is sent depends on its own datagrams alone exactly if no
failed send is followed by a datagram of another peer that would have been answered.
-/

set_option linter.unusedSectionVars false

namespace Ipfusch

open ByteConn

open PrefixCodec (utf8)

/-- `CTRL_PREFIX`, the same at both ends. -/
def ctrlPrefix : List UInt8 :=
  utf8 "IPFUSCH_CTRL"

/-- `encode_control_datagram` -/
def encodeControlDatagram (msg : ControlMessage) : List UInt8 :=
  ctrlPrefix ++ msg.serialize

/-- `decode_control_datagram` -/
def decodeControlDatagram (frame : List UInt8) : Option ControlMessage :=
  if ctrlPrefix <+: frame then ControlMessage.deserialize (frame.drop ctrlPrefix.length) else none

/-! ## Which kind a datagram is -/

/-- A header with the magic is not the start of a control datagram. -/
theorem not_prefix_encode {h : DataHeader} (hmagic : h.magic = dataMagic) (payload : List UInt8) :
    ¬ctrlPrefix <+: h.encode ++ payload := by
  rintro ⟨rest, heq⟩
  have hfour : (h.encode ++ payload).take 4 = Bytes.le 4 dataMagic.toNat := by
    rw [List.take_append_of_le_length (by rw [DataHeader.length_encode, dataHeaderSize]; omega),
      DataHeader.take_encode, hmagic]
  rw [← heq, List.take_append_of_le_length (by decide)] at hfour
  exact absurd hfour (by decide)

/-- What starts like a control datagram has no header, whatever follows. -/
theorem decode_of_ctrlPrefix {frame : List UInt8} (h : ctrlPrefix <+: frame) :
    ∃ e, DataHeader.decode (frame.take dataHeaderSize) = .error e := by
  cases hd : DataHeader.decode (frame.take dataHeaderSize) with
  | error e => exact ⟨e, rfl⟩
  | ok header =>
    obtain ⟨hbytes, hmagic, -⟩ := DataHeader.decode_eq_ok_iff.mp hd
    refine absurd h ?_
    rw [← List.take_append_drop dataHeaderSize frame, hbytes]
    exact not_prefix_encode hmagic _

/-! ## Replies -/

/-- A UDP datagram, whose length is less than `2 ^ 16`. -/
structure Datagram where
  bytes : List UInt8
  short : bytes.length < 2 ^ 16

/-- What the server sends to a peer. -/
inductive Reply
  | control (msg : ControlMessage)
  | echo (header : List UInt8)
  deriving DecidableEq

/-- The bytes of a reply. -/
def Reply.bytes : Reply → List UInt8
  | .control msg => encodeControlDatagram msg
  | .echo header => header

/-- The error context of the send. -/
def Reply.sendContext : Reply → String
  | .control _ => "udp ack send failed"
  | .echo _ => "udp echo failed"

section Server

variable (sha256 : List UInt8 → Digest)

variable {Peer : Type*} [DecidableEq Peer]

/-- The body of the loop, for `frame` from `peer` : the authorized peers after it, and the
reply if there is one. -/
def handleDatagram (token : Option String) (authorized : Finset Peer) (peer : Peer)
    (frame : List UInt8) : Finset Peer × Option Reply :=
  match decodeControlDatagram frame with
  | some (.hello version _ tokenHash _) =>
    let accepted := version == protocolVersion && tokenMatches sha256 token tokenHash
    let authorized := if accepted then insert peer authorized else authorized
    let ack := ControlMessage.ack 0 accepted
      (if accepted then none else some "token or protocol rejected")
    (authorized, some (.control ack))
  | some _ => (authorized, none)
  | none =>
    if token.isSome ∧ peer ∉ authorized then (authorized, none)
    else if frame.length < dataHeaderSize then (authorized, none)
    else
      match DataHeader.decode (frame.take dataHeaderSize) with
      | .error _ => (authorized, none)
      | .ok _ => (authorized, some (.echo (frame.take dataHeaderSize)))

/-- A datagram, where it comes from, and whether a send that answers it succeeds. -/
structure Arrival (Peer : Type*) where
  peer : Peer
  datagram : Datagram
  sendOk : Bool

/-- What `recv_from` leaves in the buffer of 64 KiB. -/
def Arrival.frame (a : Arrival Peer) : List UInt8 :=
  a.datagram.bytes.take (64 * 1024)

/-- `run_udp_server` on the datagrams that arrive : for each one handled, its peer and the
reply that was attempted, and the authorized peers at the end or the error that ends it. -/
def runUdpServer (token : Option String) : Finset Peer → List (Arrival Peer) →
    List (Peer × Option Reply) × Except (Failure NetError) (Finset Peer)
  | authorized, [] => ([], .ok authorized)
  | authorized, a :: arrivals =>
    let (authorized, reply) := handleDatagram sha256 token authorized a.peer a.frame
    let rest := runUdpServer token authorized arrivals
    match reply with
    | none => ((a.peer, none) :: rest.1, rest.2)
    | some reply =>
      if a.sendOk then ((a.peer, some reply) :: rest.1, rest.2)
      else ([(a.peer, some reply)], .error (.context reply.sendContext (.io .other)))

/-! ## One datagram -/

/-- A `Hello` that is accepted. -/
def authorizes (token : Option String) (frame : List UInt8) : Bool :=
  match decodeControlDatagram frame with
  | some (.hello version _ tokenHash _) =>
    version == protocolVersion && tokenMatches sha256 token tokenHash
  | _ => false

/-- The reply to a datagram of a peer that is authorized or not. -/
def answer (token : Option String) (known : Bool) (frame : List UInt8) : Option Reply :=
  match decodeControlDatagram frame with
  | some (.hello ..) => some (.control (.ack 0 (authorizes sha256 token frame)
      (if authorizes sha256 token frame then none else some "token or protocol rejected")))
  | some _ => none
  | none =>
    if token.isSome ∧ ¬known then none
    else
      match DataHeader.decode (frame.take dataHeaderSize) with
      | .error _ => none
      | .ok _ => some (.echo (frame.take dataHeaderSize))

/-- Authorization is the effect of the datagram, and the reply depends on the datagram and on
whether its peer is authorized. -/
theorem handleDatagram_eq (token : Option String) (authorized : Finset Peer) (peer : Peer)
    (frame : List UInt8) : handleDatagram sha256 token authorized peer frame =
      (if authorizes sha256 token frame then insert peer authorized else authorized,
        answer sha256 token (peer ∈ authorized) frame) := by
  unfold handleDatagram answer authorizes
  cases decodeControlDatagram frame with
  | some msg => cases msg <;> rfl
  | none =>
    simp only [Bool.false_eq_true, if_false, decide_eq_true_eq]
    by_cases hk : token.isSome ∧ peer ∉ authorized
    · rw [if_pos hk, if_pos hk]
    · rw [if_neg hk, if_neg hk]
      by_cases hlen : frame.length < dataHeaderSize
      · rw [if_pos hlen, DataHeader.decode_take_of_short hlen]
      · rw [if_neg hlen]
        cases DataHeader.decode (frame.take dataHeaderSize) <;> rfl

/-- A datagram fits into the buffer. -/
theorem Arrival.frame_eq (a : Arrival Peer) : a.frame = a.datagram.bytes :=
  List.take_of_length_le (by have := a.datagram.short; omega)

/-- The authorized peers after a datagram. -/
def authorize (token : Option String) (authorized : Finset Peer) (a : Arrival Peer) :
    Finset Peer :=
  if authorizes sha256 token a.frame then insert a.peer authorized else authorized

theorem mem_authorize {token : Option String} {authorized : Finset Peer} {a : Arrival Peer}
    {p : Peer} : p ∈ authorize sha256 token authorized a ↔
      p ∈ authorized ∨ (a.peer = p ∧ authorizes sha256 token a.frame = true) := by
  unfold authorize
  split_ifs with h
  · rw [Finset.mem_insert, eq_comm (a := p)]
    tauto
  · tauto

/-- The authorized peers after some datagrams. -/
def authorizedAfter (token : Option String) (authorized : Finset Peer)
    (arrivals : List (Arrival Peer)) : Finset Peer :=
  arrivals.foldl (authorize sha256 token) authorized

theorem mem_authorizedAfter {token : Option String} {p : Peer} :
    ∀ {arrivals : List (Arrival Peer)} {authorized : Finset Peer},
      p ∈ authorizedAfter sha256 token authorized arrivals ↔
        p ∈ authorized ∨ ∃ a ∈ arrivals, a.peer = p ∧ authorizes sha256 token a.frame = true
  | [], authorized => by simp [authorizedAfter]
  | a :: arrivals, authorized => by
    rw [authorizedAfter, List.foldl_cons, ← authorizedAfter, mem_authorizedAfter, mem_authorize,
      List.exists_mem_cons_iff, or_assoc]

/-- One turn of the loop. -/
theorem runUdpServer_cons (token : Option String) (authorized : Finset Peer) (a : Arrival Peer)
    (arrivals : List (Arrival Peer)) :
    runUdpServer sha256 token authorized (a :: arrivals) =
      match answer sha256 token (a.peer ∈ authorized) a.frame with
      | none =>
        ((a.peer, none) ::
          (runUdpServer sha256 token (authorize sha256 token authorized a) arrivals).1,
          (runUdpServer sha256 token (authorize sha256 token authorized a) arrivals).2)
      | some reply =>
        if a.sendOk then
          ((a.peer, some reply) ::
            (runUdpServer sha256 token (authorize sha256 token authorized a) arrivals).1,
            (runUdpServer sha256 token (authorize sha256 token authorized a) arrivals).2)
        else ([(a.peer, some reply)], .error (.context reply.sendContext (.io .other))) := by
  rw [runUdpServer, handleDatagram_eq]
  rfl

/-- While sends succeed, each datagram is answered. -/
theorem runUdpServer_cons_ok {token : Option String} {authorized : Finset Peer}
    {a : Arrival Peer} {arrivals : List (Arrival Peer)}
    (h : answer sha256 token (a.peer ∈ authorized) a.frame = none ∨ a.sendOk = true) :
    runUdpServer sha256 token authorized (a :: arrivals) =
      ((a.peer, answer sha256 token (a.peer ∈ authorized) a.frame) ::
        (runUdpServer sha256 token (authorize sha256 token authorized a) arrivals).1,
        (runUdpServer sha256 token (authorize sha256 token authorized a) arrivals).2) := by
  rw [runUdpServer_cons]
  cases hr : answer sha256 token (a.peer ∈ authorized) a.frame with
  | none => rfl
  | some reply =>
    rcases h with h | h
    · cases hr.symm.trans h
    · exact if_pos h

/-- If all sends succeed, the loop does not end, and answers each datagram. -/
theorem runUdpServer_ok (token : Option String) :
    ∀ (arrivals : List (Arrival Peer)) (authorized : Finset Peer),
      (∀ a ∈ arrivals, a.sendOk = true) →
      (runUdpServer sha256 token authorized arrivals).2 =
        .ok (authorizedAfter sha256 token authorized arrivals) ∧
      ∀ n, (runUdpServer sha256 token authorized arrivals).1[n]? = arrivals[n]?.map fun a =>
        (a.peer, answer sha256 token
          (a.peer ∈ authorizedAfter sha256 token authorized (arrivals.take n)) a.frame)
  | [], authorized, _ => ⟨rfl, fun n => by simp [runUdpServer]⟩
  | a :: arrivals, authorized, h => by
    obtain ⟨ha, harr⟩ := List.forall_mem_cons.mp h
    obtain ⟨hres, hget⟩ := runUdpServer_ok token arrivals
      (authorize sha256 token authorized a) harr
    rw [runUdpServer_cons_ok sha256 (Or.inr ha)]
    refine ⟨hres, fun n => ?_⟩
    cases n with
    | zero => rfl
    | succ n =>
      rw [List.getElem?_cons_succ, hget, List.getElem?_cons_succ]
      rfl

/-! ## With a token -/

/-- A `Hello` of this protocol version with the hash of the token. -/
def Authenticates (t : String) (frame : List UInt8) : Prop :=
  ∃ clientName capabilities, decodeControlDatagram frame =
    some (.hello protocolVersion clientName (some (hashToken sha256 t)) capabilities)

theorem authorizes_iff {t : String} {frame : List UInt8} :
    authorizes sha256 (some t) frame = true ↔ Authenticates sha256 t frame := by
  unfold authorizes Authenticates
  cases decodeControlDatagram frame with
  | none => simp
  | some msg =>
    cases msg <;> simp [tokenMatches_some]

/-- A header is echoed to authorized peers only. -/
theorem answer_eq_echo {t : String} {known : Bool} {frame header : List UInt8} :
    answer sha256 (some t) known frame = some (.echo header) ↔
      decodeControlDatagram frame = none ∧ known = true ∧
        (∃ h, DataHeader.decode (frame.take dataHeaderSize) = .ok h) ∧
        header = frame.take dataHeaderSize := by
  unfold answer
  cases decodeControlDatagram frame with
  | some msg => cases msg <;> simp
  | none =>
    cases known with
    | false => simp
    | true =>
      cases DataHeader.decode (frame.take dataHeaderSize) with
      | error e => simp
      | ok h => simp [eq_comm]

/-- An accepting `Ack` is the answer to a `Hello` with the token. -/
theorem answer_eq_accept {t : String} {known : Bool} {frame : List UInt8} {sessionId : UInt64}
    {reason : Option String} :
    answer sha256 (some t) known frame = some (.control (.ack sessionId true reason)) ↔
      sessionId = 0 ∧ reason = none ∧ Authenticates sha256 t frame := by
  rw [← authorizes_iff]
  cases hd : decodeControlDatagram frame with
  | none =>
    have ha : authorizes sha256 (some t) frame = false := by simp [authorizes, hd]
    simp only [answer, hd, ha]
    split_ifs
    · simp
    · cases DataHeader.decode (frame.take dataHeaderSize) <;> simp
  | some msg =>
    cases msg with
    | hello version clientName tokenHash capabilities =>
      cases ha : authorizes sha256 (some t) frame <;> simp [answer, hd, ha, eq_comm]
    | _ =>
      have ha : authorizes sha256 (some t) frame = false := by simp [authorizes, hd]
      simp [answer, hd, ha]

/-- All datagrams, with sends that succeed. -/
def delivered (inputs : List (Peer × Datagram)) : List (Arrival Peer) :=
  inputs.map fun i => ⟨i.1, i.2, true⟩

theorem getElem?_delivered {inputs : List (Peer × Datagram)} {n : ℕ} :
    (delivered inputs)[n]? = inputs[n]?.map fun i => ⟨i.1, i.2, true⟩ :=
  List.getElem?_map

theorem take_delivered (inputs : List (Peer × Datagram)) (n : ℕ) :
    (delivered inputs).take n = delivered (inputs.take n) :=
  (List.map_take).symm

theorem runUdpServer_delivered (token : Option String) (inputs : List (Peer × Datagram)) :
    (runUdpServer sha256 token ∅ (delivered inputs)).2 =
      .ok (authorizedAfter sha256 token ∅ (delivered inputs)) ∧
    ∀ n, (runUdpServer sha256 token ∅ (delivered inputs)).1[n]? = inputs[n]?.map fun i =>
      (i.1, answer sha256 token
        (i.1 ∈ authorizedAfter sha256 token ∅ (delivered (inputs.take n))) i.2.bytes) := by
  have hok : ∀ a ∈ delivered inputs, a.sendOk = true := by
    intro a ha
    obtain ⟨i, -, rfl⟩ := List.mem_map.mp ha
    rfl
  obtain ⟨hres, hget⟩ := runUdpServer_ok sha256 token _ ∅ hok
  refine ⟨hres, fun n => ?_⟩
  rw [hget, getElem?_delivered, Option.map_map, take_delivered]
  simp only [Function.comp_def, Arrival.frame_eq]

/-- A peer is authorized exactly if it has sent a `Hello` with the token. -/
theorem mem_authorizedAfter_delivered {t : String} {inputs : List (Peer × Datagram)} {n : ℕ}
    {p : Peer} : p ∈ authorizedAfter sha256 (some t) ∅ (delivered (inputs.take n)) ↔
      ∃ m d, m < n ∧ inputs[m]? = some (p, d) ∧ Authenticates sha256 t d.bytes := by
  rw [mem_authorizedAfter]
  simp only [Finset.notMem_empty, false_or, delivered, List.mem_map, authorizes_iff]
  constructor
  · rintro ⟨a, ⟨⟨q, d⟩, hi, rfl⟩, rfl, ha⟩
    obtain ⟨m, hm⟩ := List.mem_iff_getElem?.mp hi
    rw [List.getElem?_take] at hm
    split_ifs at hm with hlt
    exact ⟨m, d, hlt, hm, by rwa [Arrival.frame_eq] at ha⟩
  · rintro ⟨m, d, hlt, hm, ha⟩
    refine ⟨⟨p, d, true⟩, ⟨(p, d), ?_, rfl⟩, rfl, by rwa [Arrival.frame_eq]⟩
    exact List.mem_iff_getElem?.mpr ⟨m, by rw [List.getElem?_take_of_lt hlt, hm]⟩

theorem answered_iff {t : String} {inputs : List (Peer × Datagram)} {n : ℕ} {p : Peer}
    {reply : Reply} : (runUdpServer sha256 (some t) ∅ (delivered inputs)).1[n]? =
      some (p, some reply) ↔ ∃ d, inputs[n]? = some (p, d) ∧ answer sha256 (some t)
        (p ∈ authorizedAfter sha256 (some t) ∅ (delivered (inputs.take n))) d.bytes =
          some reply := by
  rw [(runUdpServer_delivered sha256 (some t) inputs).2, Option.map_eq_some_iff]
  constructor
  · rintro ⟨⟨q, d⟩, hd, h⟩
    obtain ⟨rfl, h'⟩ := Prod.mk.inj h
    exact ⟨d, hd, h'⟩
  · rintro ⟨d, hd, h⟩
    exact ⟨(p, d), hd, Prod.ext rfl h⟩

/-- With a token, and while sends succeed : a header is echoed, as it came, exactly to a peer
that has sent a `Hello` with the token before, an accepting `Ack` is sent exactly for such a
`Hello`, and no other datagram authorizes anyone. -/
theorem udpServer_authorizes (t : String) (inputs : List (Peer × Datagram)) :
    (∀ (n : ℕ) (p : Peer) header, (runUdpServer sha256 (some t) ∅ (delivered inputs)).1[n]? =
        some (p, some (Reply.echo header)) ↔
      ∃ d : Datagram, inputs[n]? = some (p, d) ∧ decodeControlDatagram d.bytes = none ∧
        dataHeaderSize ≤ d.bytes.length ∧
        (∃ h, DataHeader.decode (d.bytes.take dataHeaderSize) = .ok h) ∧
        header = d.bytes.take dataHeaderSize ∧
        ∃ (m : ℕ) (d' : Datagram), m < n ∧ inputs[m]? = some (p, d') ∧
          Authenticates sha256 t d'.bytes) ∧
    (∀ (n : ℕ) (p : Peer) sessionId reason,
      (runUdpServer sha256 (some t) ∅ (delivered inputs)).1[n]? =
        some (p, some (Reply.control (.ack sessionId true reason))) ↔
      sessionId = 0 ∧ reason = none ∧
        ∃ d : Datagram, inputs[n]? = some (p, d) ∧ Authenticates sha256 t d.bytes) ∧
    (∀ (n : ℕ) (p : Peer) (d : Datagram), inputs[n]? = some (p, d) →
      ¬Authenticates sha256 t d.bytes →
      (runUdpServer sha256 (some t) ∅ (delivered (inputs.take (n + 1)))).2 =
        (runUdpServer sha256 (some t) ∅ (delivered (inputs.take n))).2) := by
  refine ⟨fun n p header => ?_, fun n p sessionId reason => ?_, fun n p d hd hno => ?_⟩
  · rw [answered_iff]
    refine exists_congr fun d => and_congr_right fun _ => ?_
    rw [answer_eq_echo, decide_eq_true_eq, mem_authorizedAfter_delivered]
    constructor
    · rintro ⟨hctrl, hauth, ⟨h, hd⟩, hheader⟩
      have hlen := DataHeader.length_of_decode hd
      rw [List.length_take] at hlen
      exact ⟨hctrl, by omega, ⟨h, hd⟩, hheader, hauth⟩
    · rintro ⟨hctrl, -, hd, hheader, hauth⟩
      exact ⟨hctrl, hauth, hd, hheader⟩
  · rw [answered_iff]
    simp only [answer_eq_accept]
    tauto
  · rw [(runUdpServer_delivered sha256 (some t) _).1, (runUdpServer_delivered sha256 (some t) _).1]
    have ha : authorizes sha256 (some t) (Arrival.frame ⟨p, d, true⟩) = false := by
      rw [Arrival.frame_eq, ← Bool.not_eq_true, authorizes_iff]
      exact hno
    have htake : inputs.take (n + 1) = inputs.take n ++ [(p, d)] := by
      rw [List.take_add_one, hd, Option.toList_some]
    rw [htake, delivered, List.map_append, authorizedAfter, List.foldl_append]
    simp only [List.map_cons, List.map_nil, List.foldl_cons, List.foldl_nil]
    rw [authorize, if_neg (by rw [ha]; exact Bool.false_ne_true)]
    rfl

/-! ## One peer and the others -/

/-- The replies attempted to a peer, in order. -/
def repliesTo (p : Peer) (sent : List (Peer × Option Reply)) : List Reply :=
  sent.filterMap fun s => if s.1 = p then s.2 else none

/-- The datagrams of one peer. -/
def ofPeer (p : Peer) (arrivals : List (Arrival Peer)) : List (Arrival Peer) :=
  arrivals.filter fun a => a.peer = p

/-- Each peer is sent what it would be sent if only its own datagrams arrived. -/
def Undisturbed (token : Option String) (authorized : Finset Peer)
    (arrivals : List (Arrival Peer)) : Prop :=
  ∀ p, repliesTo p (runUdpServer sha256 token authorized arrivals).1 =
    repliesTo p (runUdpServer sha256 token authorized (ofPeer p arrivals)).1

/-- The datagrams that are answered if all sends succeed. -/
def answerable (token : Option String) : Finset Peer → List (Arrival Peer) → List (Arrival Peer)
  | _, [] => []
  | authorized, a :: arrivals =>
    if (answer sha256 token (a.peer ∈ authorized) a.frame).isSome then
      a :: answerable token (authorize sha256 token authorized a) arrivals
    else answerable token (authorize sha256 token authorized a) arrivals

/-- No datagram whose answer cannot be sent is followed by one of another peer that would be
answered. -/
def NoFailureBefore (token : Option String) (authorized : Finset Peer)
    (arrivals : List (Arrival Peer)) : Prop :=
  (answerable sha256 token authorized arrivals).Pairwise fun a b =>
    a.sendOk = false → b.peer = a.peer

theorem ofPeer_cons_self (a : Arrival Peer) (arrivals : List (Arrival Peer)) :
    ofPeer a.peer (a :: arrivals) = a :: ofPeer a.peer arrivals := by
  simp [ofPeer]

theorem ofPeer_cons_of_ne {p : Peer} {a : Arrival Peer} (h : a.peer ≠ p)
    (arrivals : List (Arrival Peer)) : ofPeer p (a :: arrivals) = ofPeer p arrivals := by
  simp [ofPeer, h]

/-- Another peer's datagram does not authorize. -/
theorem mem_authorize_of_ne {token : Option String} {authorized : Finset Peer} {a : Arrival Peer}
    {p : Peer} (h : a.peer ≠ p) : p ∈ authorize sha256 token authorized a ↔ p ∈ authorized := by
  rw [mem_authorize]
  tauto

/-- Authorization of a peer depends on no other. -/
theorem mem_authorize_congr (token : Option String) {authorized authorized' : Finset Peer}
    {p : Peer} (h : p ∈ authorized ↔ p ∈ authorized') (a : Arrival Peer) :
    p ∈ authorize sha256 token authorized a ↔ p ∈ authorize sha256 token authorized' a := by
  rw [mem_authorize, mem_authorize, h]

/-- On the datagrams of one peer, only that peer's authorization matters. -/
theorem runUdpServer_congr (token : Option String) {p : Peer} :
    ∀ (arrivals : List (Arrival Peer)) {authorized authorized' : Finset Peer},
      (p ∈ authorized ↔ p ∈ authorized') →
      (runUdpServer sha256 token authorized (ofPeer p arrivals)).1 =
        (runUdpServer sha256 token authorized' (ofPeer p arrivals)).1
  | [], _, _, _ => rfl
  | a :: arrivals, authorized, authorized', h => by
    by_cases hp : a.peer = p
    · subst hp
      have hnext := mem_authorize_congr sha256 token h a
      have ih := runUdpServer_congr token arrivals hnext
      rw [ofPeer_cons_self, runUdpServer_cons, runUdpServer_cons, ih, decide_eq_decide.mpr h]
      cases answer sha256 token (a.peer ∈ authorized') a.frame with
      | none => rfl
      | some reply => cases a.sendOk <;> rfl
    · rw [ofPeer_cons_of_ne hp]
      exact runUdpServer_congr token arrivals h

/-- Run alone, a peer gets no reply exactly if none of its datagrams is answerable. -/
theorem repliesTo_ofPeer_eq_nil (token : Option String) {p : Peer} :
    ∀ (arrivals : List (Arrival Peer)) {authorized authorized' : Finset Peer},
      (p ∈ authorized ↔ p ∈ authorized') →
      (repliesTo p (runUdpServer sha256 token authorized (ofPeer p arrivals)).1 = [] ↔
        ∀ b ∈ answerable sha256 token authorized' arrivals, b.peer ≠ p)
  | [], _, _, _ => by simp [ofPeer, runUdpServer, repliesTo, answerable]
  | a :: arrivals, authorized, authorized', h => by
    by_cases hp : a.peer = p
    · subst hp
      have hnext := mem_authorize_congr sha256 token h a
      have ih := repliesTo_ofPeer_eq_nil token arrivals hnext
      rw [ofPeer_cons_self, runUdpServer_cons, answerable, decide_eq_decide.mpr h]
      cases answer sha256 token (a.peer ∈ authorized') a.frame with
      | none =>
        simpa [repliesTo] using ih
      | some reply =>
        cases a.sendOk <;> simp [repliesTo]
    · have hnext : p ∈ authorized ↔ p ∈ authorize sha256 token authorized' a := by
        rw [mem_authorize_of_ne sha256 hp, h]
      rw [ofPeer_cons_of_ne hp, repliesTo_ofPeer_eq_nil token arrivals hnext, answerable]
      split_ifs
      · simp [hp]
      · rfl

theorem repliesTo_cons_self (p : Peer) (r : Option Reply) (sent : List (Peer × Option Reply)) :
    repliesTo p ((p, r) :: sent) = r.toList ++ repliesTo p sent := by
  cases r <;> simp [repliesTo]

theorem repliesTo_cons_of_ne {p q : Peer} (h : q ≠ p) (r : Option Reply)
    (sent : List (Peer × Option Reply)) : repliesTo p ((q, r) :: sent) = repliesTo p sent := by
  simp [repliesTo, h]

/-- A turn after which the loop goes on disturbs nobody. -/
theorem undisturbed_cons_ok {token : Option String} {authorized : Finset Peer} {a : Arrival Peer}
    {arrivals : List (Arrival Peer)}
    (h : answer sha256 token (a.peer ∈ authorized) a.frame = none ∨ a.sendOk = true) :
    Undisturbed sha256 token authorized (a :: arrivals) ↔
      Undisturbed sha256 token (authorize sha256 token authorized a) arrivals := by
  refine forall_congr' fun p => ?_
  rw [runUdpServer_cons_ok sha256 h]
  by_cases hp : a.peer = p
  · subst hp
    rw [ofPeer_cons_self, runUdpServer_cons_ok sha256 h, repliesTo_cons_self,
      repliesTo_cons_self, List.append_cancel_left_eq]
  · rw [ofPeer_cons_of_ne hp, repliesTo_cons_of_ne hp,
      runUdpServer_congr sha256 token arrivals (mem_authorize_of_ne sha256 hp)]

/-- A turn whose send fails disturbs the peers that would have been answered. -/
theorem undisturbed_cons_failed {token : Option String} {authorized : Finset Peer}
    {a : Arrival Peer} {arrivals : List (Arrival Peer)} {reply : Reply}
    (h : answer sha256 token (a.peer ∈ authorized) a.frame = some reply) (hs : a.sendOk = false) :
    Undisturbed sha256 token authorized (a :: arrivals) ↔
      ∀ b ∈ answerable sha256 token (authorize sha256 token authorized a) arrivals,
        b.peer = a.peer := by
  have hrun : ∀ l, (runUdpServer sha256 token authorized (a :: l)).1 =
      [(a.peer, some reply)] := by
    intro l
    rw [runUdpServer_cons, h, hs]
    rfl
  have hother : ∀ p, a.peer ≠ p → (repliesTo p (runUdpServer sha256 token authorized
      (a :: arrivals)).1 = repliesTo p (runUdpServer sha256 token authorized
        (ofPeer p (a :: arrivals))).1 ↔
      ∀ b ∈ answerable sha256 token (authorize sha256 token authorized a) arrivals,
        b.peer ≠ p) := by
    intro p hp
    rw [hrun, ofPeer_cons_of_ne hp, repliesTo_cons_of_ne hp, repliesTo, List.filterMap_nil,
      eq_comm, repliesTo_ofPeer_eq_nil sha256 token arrivals
        (mem_authorize_of_ne sha256 hp).symm]
  constructor
  · intro hu b hb
    by_contra hne
    exact (hother b.peer (Ne.symm hne)).mp (hu b.peer) b hb rfl
  · intro hall p
    by_cases hp : a.peer = p
    · subst hp
      rw [ofPeer_cons_self, hrun, hrun]
    · refine (hother p hp).mpr fun b hb hbp => hp ?_
      rw [← hall b hb, hbp]

theorem undisturbed_iff_pairwise (token : Option String) :
    ∀ (arrivals : List (Arrival Peer)) (authorized : Finset Peer),
      Undisturbed sha256 token authorized arrivals ↔
        NoFailureBefore sha256 token authorized arrivals
  | [], authorized => by
    simp [Undisturbed, NoFailureBefore, answerable, ofPeer]
  | a :: arrivals, authorized => by
    have ih := undisturbed_iff_pairwise token arrivals (authorize sha256 token authorized a)
    unfold NoFailureBefore at ih ⊢
    rw [answerable]
    cases hr : answer sha256 token (a.peer ∈ authorized) a.frame with
    | none =>
      rw [undisturbed_cons_ok sha256 (Or.inl hr), ih]
      rfl
    | some reply =>
      rw [Option.isSome_some, if_pos rfl, List.pairwise_cons]
      cases hs : a.sendOk with
      | true =>
        rw [undisturbed_cons_ok sha256 (Or.inr hs), ih]
        simp
      | false =>
        rw [undisturbed_cons_failed sha256 hr hs]
        constructor
        · intro hall
          refine ⟨fun b hb _ => hall b hb, List.pairwise_of_forall_mem_list fun b hb c hc _ => ?_⟩
          rw [hall b hb, hall c hc]
        · rintro ⟨hall, -⟩ b hb
          exact hall b hb rfl

/-- A peer is disturbed exactly by a failed send to another peer that comes before one of its
own datagrams that would be answered. -/
theorem undisturbed_iff (token : Option String) (arrivals : List (Arrival Peer)) :
    Undisturbed sha256 token ∅ arrivals ↔ NoFailureBefore sha256 token ∅ arrivals :=
  undisturbed_iff_pairwise sha256 token arrivals ∅

end Server

/-- A hash for runs without a token. -/
def noHash (_ : List UInt8) : Digest :=
  List.Vector.replicate 32 0

/-- A data datagram without payload. -/
def emptyPacket : Datagram where
  bytes := (DataHeader.new 1 0 1 0 0).encode
  short := by decide

/-- After one echo that cannot be sent to one peer, another peer gets none. -/
theorem not_undisturbed_failed_echo :
    ¬Undisturbed noHash none ∅ [⟨0, emptyPacket, false⟩, ⟨1, emptyPacket, true⟩] := by
  intro h
  have htwo : repliesTo 1 (runUdpServer noHash none ∅
    [⟨0, emptyPacket, false⟩, ⟨1, emptyPacket, true⟩]).1 = [] := rfl
  have halone : repliesTo 1 (runUdpServer noHash none ∅ (ofPeer 1
    [⟨0, emptyPacket, false⟩, ⟨1, emptyPacket, true⟩])).1 = [.echo emptyPacket.bytes] := rfl
  have h1 := h 1
  rw [htwo, halone] at h1
  cases h1

end Ipfusch
