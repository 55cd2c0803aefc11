import Ipfusch.UdpSystem

/-!
# The UDP client by itself

`udpStream` is `run_stream_udp` with its socket, into which any datagrams of any origin arrive
at any time. What arrives in a trace is what the `recv` of the loop takes from the socket.
`LoopInvariant` is the induction rule for its runs : a property of the clock, the trace and the
variables of the loop that each step of the loop keeps.

The client compares the number of an echo and nothing else. `udp_ackedBy` : a packet is reported
as received only after a datagram with its number was taken, and that after the packet was sent.
`not_ackedBy_foreign_echo` : the datagram may be of another session. `udpSystem_client` : the
client of `udpSystem` is a client by itself, so all this holds of it, too.
-/

namespace Ipfusch

/-- The client and its socket. -/
structure UdpStreamState where
  clock : ℕ
  client : UdpClient
  /-- The datagrams in the client's socket. -/
  socket : List (List UInt8)

/-- What can come next. -/
inductive UdpStreamAction
  /-- Time passes. -/
  | wait (n : ℕ)
  /-- The client's next step. -/
  | tick
  /-- The client's send fails. -/
  | sendFails
  /-- A datagram reaches the client's socket. -/
  | arrive (frame : List UInt8)
  /-- The client's `recv` takes the first datagram of the socket. -/
  | recv
  /-- The client's `recv` fails. -/
  | recvFails
  /-- The client's timeout elapses. -/
  | elapsed
  deriving DecidableEq, Repr

section Stream

variable (sha256 : List UInt8 → Digest)

/-- One step of the client. -/
def udpStreamStep (spec : StreamRunSpec) (s : UdpStreamState) :
    UdpStreamAction → Option (UdpStreamState × List UdpObs)
  | .wait n => some ({ s with clock := s.clock + n }, [])
  | .tick => (udpTick sha256 spec s.clock s.client).map fun r => ({ s with client := r.1 }, r.2.2)
  | .sendFails =>
    match s.client with
    | .hello => some ({ s with client := .failed }, [])
    | .data w =>
      match w.pc with
      | .send _ => some ({ s with client := .data { w with pc := .failed } }, [])
      | _ => none
    | _ => none
  | .arrive frame => some ({ s with socket := s.socket ++ [frame] }, [])
  | .recv =>
    match s.client, s.socket with
    | .awaitAck _, frame :: socket => some ({ s with client := onAck frame, socket := socket }, [])
    | .data w, frame :: socket =>
      match w.pc with
      | .recv sendMonoNs measured _ =>
        let r := onEcho spec w sendMonoNs measured frame s.clock
        some ({ s with client := .data r.1, socket := socket }, .arrived frame s.clock :: r.2)
      | _ => none
    | _, _ => none
  | .recvFails =>
    match s.client with
    | .awaitAck _ => some ({ s with client := .failed }, [])
    | .data w =>
      match w.pc with
      | .recv sendMonoNs measured _ => some ({ s with client := .data { w with pc := .head } },
          [.event (w.report spec sendMonoNs measured none)])
      | _ => none
    | _ => none
  | .elapsed =>
    -- `timeout` looks at the socket before it looks at the clock.
    if s.socket = [] then
      match s.client with
      | .awaitAck deadline =>
        if deadline ≤ s.clock then some ({ s with client := .failed }, []) else none
      | .data w =>
        match w.pc with
        | .recv sendMonoNs measured deadline =>
          if deadline ≤ s.clock then
            some ({ s with client := .data { w with pc := .head } },
              [.event (w.report spec sendMonoNs measured none)])
          else none
        | _ => none
      | _ => none
    else none

/-- `run_stream_udp` -/
def udpStream (spec : StreamRunSpec) : Machine UdpStreamState UdpStreamAction UdpObs where
  init := ⟨0, .hello, []⟩
  step := udpStreamStep sha256 spec

/-! ## What a step can do -/

/-- A property of the clock, the trace and the variables of the loop that each step of the loop
keeps. -/
structure LoopInvariant (spec : StreamRunSpec) (P : ℕ → List UdpObs → WaitState → Prop) : Prop where
  wait : ∀ {clock clock' t w}, P clock t w → clock ≤ clock' → P clock' t w
  tick : ∀ {clock t w w'}, P clock t w → waitTick spec w clock = some w' → P clock t w'
  sent : ∀ {clock t w sendMonoNs}, P clock t w → w.pc = .send sendMonoNs →
    P clock (t ++ [.sent w.seq clock]) { w with pc := .measure sendMonoNs }
  sendFails : ∀ {clock t w sendMonoNs}, P clock t w → w.pc = .send sendMonoNs →
    P clock t { w with pc := .failed }
  lost : ∀ {clock t w sendMonoNs measured deadline}, P clock t w →
    w.pc = .recv sendMonoNs measured deadline →
    P clock (t ++ [.event (w.report spec sendMonoNs measured none)]) { w with pc := .head }
  took : ∀ {clock t w sendMonoNs measured deadline} frame, P clock t w →
    w.pc = .recv sendMonoNs measured deadline →
    P clock (t ++ .arrived frame clock :: (onEcho spec w sendMonoNs measured frame clock).2)
      (onEcho spec w sendMonoNs measured frame clock).1

variable {spec : StreamRunSpec} {P : ℕ → List UdpObs → WaitState → Prop} {t o : List UdpObs}
  {s s' : UdpStreamState} {a : UdpStreamAction} {w : WaitState}

/-- A step in the loop stays there, and keeps the property. -/
theorem LoopInvariant.step (h : LoopInvariant spec P)
    (hs : udpStreamStep sha256 spec s a = some (s', o)) (hclient : s.client = .data w)
    (hw : P s.clock t w) : ∃ w', s'.client = .data w' ∧ P s'.clock (t ++ o) w' := by
  unfold udpStreamStep at hs
  cases a with
  | wait n =>
    obtain ⟨rfl, rfl⟩ := Prod.mk.inj (Option.some.inj hs)
    rw [List.append_nil]
    exact ⟨w, hclient, h.wait hw (Nat.le_add_right _ _)⟩
  | arrive frame =>
    obtain ⟨rfl, rfl⟩ := Prod.mk.inj (Option.some.inj hs)
    rw [List.append_nil]
    exact ⟨w, hclient, hw⟩
  | tick =>
    dsimp only at hs
    rw [Option.map_eq_some_iff] at hs
    obtain ⟨⟨c, frames, o'⟩, htick, hs⟩ := hs
    obtain ⟨rfl, rfl⟩ := Prod.mk.inj hs
    unfold udpTick at htick
    simp only [hclient] at htick
    split at htick
    · rename_i sendMonoNs hpc
      simp only [Option.some.injEq, Prod.mk.injEq] at htick
      obtain ⟨rfl, -, rfl⟩ := htick
      exact ⟨_, rfl, h.sent hw hpc⟩
    · rw [Option.map_eq_some_iff] at htick
      obtain ⟨w', htick, heq⟩ := htick
      simp only [Prod.mk.injEq] at heq
      obtain ⟨rfl, -, rfl⟩ := heq
      rw [List.append_nil]
      exact ⟨w', rfl, h.tick hw htick⟩
  | sendFails =>
    simp only [hclient] at hs
    split at hs
    · rename_i sendMonoNs hpc
      obtain ⟨rfl, rfl⟩ := Prod.mk.inj (Option.some.inj hs)
      rw [List.append_nil]
      exact ⟨_, rfl, h.sendFails hw hpc⟩
    · cases hs
  | recv =>
    rw [hclient] at hs
    dsimp only at hs
    split at hs
    · rename_i hdata _
      cases hdata
    · rename_i w' frame socket hdata hsocket
      obtain rfl := UdpClient.data.inj hdata
      split at hs
      · rename_i sendMonoNs measured deadline hpc
        obtain ⟨rfl, rfl⟩ := Prod.mk.inj (Option.some.inj hs)
        exact ⟨_, rfl, h.took frame hw hpc⟩
      · cases hs
    · cases hs
  | recvFails =>
    simp only [hclient] at hs
    split at hs
    · rename_i sendMonoNs measured deadline hpc
      obtain ⟨rfl, rfl⟩ := Prod.mk.inj (Option.some.inj hs)
      exact ⟨_, rfl, h.lost hw hpc⟩
    · cases hs
  | elapsed =>
    dsimp only at hs
    split_ifs at hs
    simp only [hclient] at hs
    split at hs
    · rename_i sendMonoNs measured deadline hpc
      split_ifs at hs
      obtain ⟨rfl, rfl⟩ := Prod.mk.inj (Option.some.inj hs)
      exact ⟨_, rfl, h.lost hw hpc⟩
    · cases hs

/-- A step before the loop shows nothing, and may enter the loop. -/
theorem udpStreamStep_handshake (hs : udpStreamStep sha256 spec s a = some (s', o))
    (hdata : ∀ w, s.client ≠ .data w) : o = [] ∧
      ((∀ w, s'.client ≠ .data w) ∨ s'.client = .data ⟨s'.clock, .begin, 0, 0⟩) := by
  unfold udpStreamStep at hs
  cases a with
  | wait n | arrive frame =>
    obtain ⟨rfl, rfl⟩ := Prod.mk.inj (Option.some.inj hs)
    exact ⟨rfl, .inl hdata⟩
  | tick =>
    dsimp only at hs
    rw [Option.map_eq_some_iff] at hs
    obtain ⟨⟨c, frames, o'⟩, htick, hs⟩ := hs
    obtain ⟨rfl, rfl⟩ := Prod.mk.inj hs
    unfold udpTick at htick
    cases hclient : s.client with
    | hello | arm =>
      simp only [hclient, Option.some.injEq, Prod.mk.injEq] at htick
      obtain ⟨rfl, -, rfl⟩ := htick
      exact ⟨rfl, .inl (by simp)⟩
    | ready =>
      simp only [hclient, Option.some.injEq, Prod.mk.injEq] at htick
      obtain ⟨rfl, -, rfl⟩ := htick
      exact ⟨rfl, .inr rfl⟩
    | data w => exact absurd hclient (hdata w)
    | awaitAck _ | failed => simp only [hclient, reduceCtorEq] at htick
  | sendFails | recvFails =>
    dsimp only at hs
    split at hs
    · obtain ⟨rfl, rfl⟩ := Prod.mk.inj (Option.some.inj hs)
      exact ⟨rfl, .inl (by simp)⟩
    · exact absurd ‹_› (hdata _)
    · cases hs
  | recv =>
    dsimp only at hs
    split at hs
    · obtain ⟨rfl, rfl⟩ := Prod.mk.inj (Option.some.inj hs)
      exact ⟨rfl, .inl (onAck_ne_data _)⟩
    · exact absurd ‹_› (hdata _)
    · cases hs
  | elapsed =>
    dsimp only at hs
    split_ifs at hs
    split at hs
    · split_ifs at hs
      obtain ⟨rfl, rfl⟩ := Prod.mk.inj (Option.some.inj hs)
      exact ⟨rfl, .inl (by simp)⟩
    · exact absurd ‹_› (hdata _)
    · cases hs

/-- The property holds of each run that has entered the loop. Before that nothing is shown. -/
theorem LoopInvariant.reach (h : LoopInvariant spec P)
    (hinit : ∀ clock, P clock [] ⟨clock, .begin, 0, 0⟩) (hr : (udpStream sha256 spec).Reach t s) :
    (∃ w, s.client = .data w ∧ P s.clock t w) ∨ (t = [] ∧ ∀ w, s.client ≠ .data w) := by
  refine hr.invariant (I := fun t s => (∃ w, s.client = .data w ∧ P s.clock t w) ∨
    (t = [] ∧ ∀ w, s.client ≠ .data w)) (.inr ⟨rfl, nofun⟩) fun {t s a s' o} _ hI hs => ?_
  rcases hI with ⟨w, hclient, hw⟩ | ⟨rfl, hdata⟩
  · exact .inl (h.step sha256 hs hclient hw)
  · obtain ⟨rfl, hno | hclient⟩ := udpStreamStep_handshake sha256 hs hdata
    · exact .inr ⟨rfl, hno⟩
    · exact .inl ⟨_, hclient, hinit _⟩

/-! ## Echoes -/

/-- The loop goes on in one of its two ways after it took a datagram. -/
theorem onEcho_effect {sendMonoNs deadline : ℕ} {measured : Bool}
    (hpc : w.pc = .recv sendMonoNs measured deadline) (frame : List UInt8) (now : ℕ) :
    WaitEffect spec now w (onEcho spec w sendMonoNs measured frame now).1
      (onEcho spec w sendMonoNs measured frame now).2 := by
  unfold onEcho
  dsimp only
  split_ifs
  · unfold onHeader
    cases DataHeader.decode (frame.take dataHeaderSize) with
    | error e => exact .decodeFailed _ rfl rfl
    | ok header => exact .report sendMonoNs measured deadline _ hpc
  · exact .report sendMonoNs measured deadline none hpc

/-- A packet is reported as received if the datagram that was taken has its number. -/
theorem onEcho_acked {sendMonoNs now : ℕ} {measured : Bool} {frame : List UInt8}
    {e : PacketEvent} (he : .event e ∈ (onEcho spec w sendMonoNs measured frame now).2)
    (hacked : e.recvMonoNs ≠ none) :
    e.seq = w.seq ∧ e.recvMonoNs = some now ∧ Carries w.seq frame := by
  unfold onEcho onHeader at he
  dsimp only at he
  split_ifs at he
  · cases hd : DataHeader.decode (frame.take dataHeaderSize) with
    | error err =>
      rw [hd] at he
      simp at he
    | ok header =>
      rw [hd] at he
      obtain rfl : e = _ := by simpa using he
      by_cases hseq : header.seq.toNat = w.seq
      · refine ⟨rfl, if_pos hseq, ?_⟩
        rw [Carries, frameSeq, hd]
        exact congrArg some hseq
      · exact absurd (if_neg hseq) hacked
  · obtain rfl : e = _ := by simpa using he
    exact absurd rfl hacked

/-- Packets are reported in order. -/
theorem inTurn_loop : LoopInvariant spec fun _ t w => InTurn spec t w where
  wait h _ := h
  tick h htick := h.tick htick
  sent h hpc := h.step (.sent _ hpc)
  sendFails h _ := h.idle rfl rfl
  lost h hpc := h.report hpc none
  took {clock t w sendMonoNs measured deadline} frame h hpc := by
    rw [List.append_cons]
    exact (h.append rfl).step (onEcho_effect hpc frame clock)

/-- The packet of an event was sent, then a datagram was taken that `echo` accepts for it, and
then it was reported. -/
def AckedFor (echo : ℕ → List UInt8 → Prop) (t : List UdpObs) (e : PacketEvent) : Prop :=
  ∃ t₁ t₂ t₃ sentAt frame time,
    t = t₁ ++ .sent e.seq sentAt :: t₂ ++ .arrived frame time :: t₃ ∧
      echo e.seq frame ∧ e.recvMonoNs = some time ∧ .event e ∈ t₃

/-- So it is for each packet that is reported as received. -/
def AckedBy (echo : ℕ → List UInt8 → Prop) (t : List UdpObs) : Prop :=
  ∀ e, .event e ∈ t → e.recvMonoNs ≠ none → AckedFor echo t e

variable {echo : ℕ → List UInt8 → Prop}

theorem AckedFor.append {e : PacketEvent} (h : AckedFor echo t e) (o : List UdpObs) :
    AckedFor echo (t ++ o) e := by
  obtain ⟨t₁, t₂, t₃, sentAt, frame, time, rfl, hecho, htime, hevent⟩ := h
  exact ⟨t₁, t₂, t₃ ++ o, sentAt, frame, time, by simp, hecho, htime,
    List.mem_append_left _ hevent⟩

/-- What comes later changes nothing. -/
theorem AckedBy.append (h : AckedBy echo t)
    (ho : ∀ e, .event e ∈ o → e.recvMonoNs ≠ none → AckedFor echo (t ++ o) e) :
    AckedBy echo (t ++ o) := by
  intro e he hacked
  rcases List.mem_append.mp he with hold | hnew
  · exact (h e hold hacked).append o
  · exact ho e hnew hacked

/-- If the datagram that is taken has the number of the packet, it is reported as received. -/
theorem ackedBy_loop :
    LoopInvariant spec fun _ t w => InTurn spec t w ∧ AckedBy Carries t where
  wait h _ := h
  tick h htick := ⟨h.1.tick htick, h.2⟩
  sent h hpc := ⟨inTurn_loop.sent h.1 hpc, h.2.append (by simp)⟩
  sendFails h _ := ⟨h.1.idle rfl rfl, h.2⟩
  lost h hpc := ⟨h.1.report hpc none, h.2.append (by simp [WaitState.report])⟩
  took {clock t w sendMonoNs measured deadline} frame h hpc := by
    refine ⟨inTurn_loop.took frame h.1 hpc, h.2.append fun e he hacked => ?_⟩
    have hevent : .event e ∈ (onEcho spec w sendMonoNs measured frame clock).2 := by simpa using he
    obtain ⟨hseq, htime, hcarries⟩ := onEcho_acked hevent hacked
    obtain ⟨sentAt, hsent⟩ := h.1.sent (by rw [hpc]; rfl)
    obtain ⟨t₁, t₂, rfl⟩ := List.mem_iff_append.mp hsent
    exact ⟨t₁, t₂, _, sentAt, frame, clock, by rw [hseq], hseq ▸ hcarries, htime, hevent⟩

/-- In every run, whatever arrives, a packet is reported as received only if, after it was sent,
a datagram was taken whose header is decoded and has the packet's number. -/
theorem udp_ackedBy (hr : (udpStream sha256 spec).Reach t s) : AckedBy Carries t := by
  rcases ackedBy_loop.reach sha256 (fun clock => ⟨inTurn_init spec clock, nofun⟩) hr with
    ⟨w, -, hw⟩ | ⟨rfl, -⟩
  · exact hw.2
  · exact nofun

/-! ## The client in the system -/

/-- The client of a system, by itself. -/
def UdpState.clientOf {Peer : Type} (s : UdpState Peer) : UdpStreamState :=
  ⟨s.clock, s.client, s.socket⟩

theorem clientOf_onServe {Peer : Type} [DecidableEq Peer] (token : Option String) (me peer : Peer)
    (frame : List UInt8) (sendOk : Bool) (s : UdpState Peer) :
    (onServe sha256 token me peer frame sendOk s).clientOf = s.clientOf := by
  obtain ⟨hclock, hclient, hsocket⟩ := onServe_client sha256 token me peer frame sendOk s
  rw [UdpState.clientOf, hclock, hclient, hsocket]
  rfl

/-- Each step of the system is one of the client by itself, with the same events, or one of the
server. -/
theorem udpStep_client {Peer : Type} [DecidableEq Peer] {token : Option String} {me : Peer}
    {s s' : UdpState Peer} {a : UdpAction Peer}
    (hs : udpStep sha256 token spec me s a = some (s', o)) :
    (s'.clientOf = s.clientOf ∧ waitEvents o = []) ∨ ∃ a' o',
      udpStreamStep sha256 spec s.clientOf a' = some (s'.clientOf, o') ∧
        waitEvents o' = waitEvents o := by
  unfold udpStep at hs
  cases a with
  | wait n =>
    obtain ⟨rfl, rfl⟩ := Prod.mk.inj (Option.some.inj hs)
    exact .inr ⟨.wait n, [], rfl, rfl⟩
  | tick =>
    dsimp only at hs
    rw [Option.map_eq_some_iff] at hs
    obtain ⟨r, htick, hs⟩ := hs
    obtain ⟨rfl, rfl⟩ := Prod.mk.inj hs
    refine .inr ⟨.tick, r.2.2, ?_, rfl⟩
    unfold udpStreamStep UdpState.clientOf
    dsimp only
    rw [htick]
    rfl
  | sendFails =>
    refine .inr ⟨.sendFails, o, ?_, rfl⟩
    unfold udpStreamStep UdpState.clientOf
    dsimp only at hs ⊢
    split at hs
    · obtain ⟨rfl, rfl⟩ := Prod.mk.inj (Option.some.inj hs)
      simp [*]
    · split at hs
      · obtain ⟨rfl, rfl⟩ := Prod.mk.inj (Option.some.inj hs)
        simp [*]
      · cases hs
    · cases hs
  | recv =>
    dsimp only at hs
    split at hs
    · obtain ⟨rfl, rfl⟩ := Prod.mk.inj (Option.some.inj hs)
      refine .inr ⟨.recv, [], ?_, rfl⟩
      simp [udpStreamStep, UdpState.clientOf, *]
    · rename_i w frame socket hclient hsocket
      split at hs
      · rename_i sendMonoNs measured deadline hpc
        obtain ⟨rfl, rfl⟩ := Prod.mk.inj (Option.some.inj hs)
        refine .inr ⟨.recv, .arrived frame s.clock ::
          (onEcho spec w sendMonoNs measured frame s.clock).2, ?_, rfl⟩
        simp [udpStreamStep, UdpState.clientOf, *]
      · cases hs
    · cases hs
  | recvFails =>
    refine .inr ⟨.recvFails, o, ?_, rfl⟩
    unfold udpStreamStep UdpState.clientOf
    dsimp only at hs ⊢
    split at hs
    · obtain ⟨rfl, rfl⟩ := Prod.mk.inj (Option.some.inj hs)
      simp [*]
    · split at hs
      · obtain ⟨rfl, rfl⟩ := Prod.mk.inj (Option.some.inj hs)
        simp [*]
      · cases hs
    · cases hs
  | elapsed =>
    refine .inr ⟨.elapsed, o, ?_, rfl⟩
    unfold udpStreamStep UdpState.clientOf
    dsimp only at hs ⊢
    split_ifs at hs with hsocket
    rw [if_pos hsocket]
    split at hs
    · split_ifs at hs
      obtain ⟨rfl, rfl⟩ := Prod.mk.inj (Option.some.inj hs)
      simp [*]
    · split at hs
      · split_ifs at hs
        obtain ⟨rfl, rfl⟩ := Prod.mk.inj (Option.some.inj hs)
        simp [*]
      · cases hs
    · cases hs
  | serve i sendOk =>
    dsimp only at hs
    split at hs
    · split_ifs at hs
      obtain ⟨rfl, rfl⟩ := Prod.mk.inj (Option.some.inj hs)
      exact .inl ⟨clientOf_onServe sha256 token me me _ sendOk s, rfl⟩
    · cases hs
  | serveOther peer frame sendOk =>
    dsimp only at hs
    split_ifs at hs
    obtain ⟨rfl, rfl⟩ := Prod.mk.inj (Option.some.inj hs)
    exact .inl ⟨clientOf_onServe sha256 token me peer frame sendOk s, rfl⟩
  | arrive i =>
    dsimp only at hs
    split at hs
    · rename_i frame _
      obtain ⟨rfl, rfl⟩ := Prod.mk.inj (Option.some.inj hs)
      exact .inr ⟨.arrive frame, [], rfl, rfl⟩
    · cases hs

/-- A run of the system is one of the client, with the same events. -/
theorem udpSystem_client {Peer : Type} [DecidableEq Peer] {token : Option String} {me : Peer}
    {s : UdpState Peer} (hr : (udpSystem sha256 token spec me).Reach t s) :
    ∃ t', (udpStream sha256 spec).Reach t' s.clientOf ∧ waitEvents t' = waitEvents t :=
  hr.simulate UdpState.clientOf WaitObs.event? WaitObs.event? rfl (udpStep_client sha256)

end Stream

/-! ## Runs -/

/-- An echo of a packet of a session and stream. -/
def EchoOf (sessionId : UInt64) (streamId : UInt32) (seq : ℕ) (frame : List UInt8) : Prop :=
  ∃ header, DataHeader.decode (frame.take dataHeaderSize) = .ok header ∧
    header.sessionId = sessionId ∧ header.streamId = streamId ∧ header.seq.toNat = seq

/-- The client at the start of its loop. -/
def udpLoopStart : UdpStreamState :=
  ⟨0, .data ⟨0, .begin, 0, 0⟩, []⟩

/-- If an `Ack` that accepts arrives, the loop begins. -/
theorem reach_udpLoopStart (sha256 : List UInt8 → Digest) (spec : StreamRunSpec) :
    (udpStream sha256 spec).Reach [] udpLoopStart := by
  have hexec : (udpStream sha256 spec).exec (udpStream sha256 spec).init
      [.tick, .tick, .arrive acceptDatagram, .recv, .tick] = some (udpLoopStart, []) := by
    simp [Machine.exec, udpStream, udpStreamStep, udpTick, onAck_acceptDatagram, udpLoopStart]
  exact Machine.reach_exec hexec

/-- The echo of the first packet of another session. -/
def foreignEcho : List UInt8 :=
  (packetHeader { udpSpec with sessionId := 8 } 1 0).encode

/-- It comes right after the first packet was sent. -/
def foreignFirst : List UdpStreamAction :=
  [.replicate 7 .tick, [.arrive foreignEcho, .recv]].flatten

theorem foreignFirst_exec :
    ((udpStream noHash udpSpec).exec udpLoopStart foreignFirst).map Prod.snd =
      some [.sent 1 0, .arrived foreignEcho 0, .event ⟨0, 1, 0, 0, some 0, true⟩] := by
  decide +kernel

theorem not_ackedBy_foreign_echo :
    ¬∀ t s, (udpStream noHash udpSpec).Reach t s →
      AckedBy (EchoOf udpSpec.sessionId udpSpec.streamId) t := by
  intro h
  obtain ⟨⟨s, t⟩, hexec, rfl⟩ := Option.map_eq_some_iff.mp foreignFirst_exec
  have hacked := h _ s ((reach_udpLoopStart noHash udpSpec).exec hexec)
    ⟨0, 1, 0, 0, some 0, true⟩ (by simp) nofun
  obtain ⟨t₁, t₂, t₃, sentAt, frame, time, heq, ⟨header, hd, hsession, -⟩, -⟩ := hacked
  have hmem : .arrived frame time ∈
      ([.sent 1 0, .arrived foreignEcho 0, .event ⟨0, 1, 0, 0, some 0, true⟩] : List UdpObs) := by
    rw [← List.nil_append [_, _, _], heq]
    simp
  obtain ⟨rfl, -⟩ : frame = foreignEcho ∧ time = 0 := by simpa using hmem
  have hforeign : (DataHeader.decode (foreignEcho.take dataHeaderSize)).toOption.map
      DataHeader.sessionId = some 8 := by decide
  rw [hd] at hforeign
  exact absurd (hsession.symm.trans (Option.some.inj hforeign)) (by decide)

/-- The datagram of the other session has the number of the packet. -/
theorem udp_ackedBy_foreign_echo : ∃ t s, (udpStream noHash udpSpec).Reach t s ∧
    .event ⟨0, 1, 0, 0, some 0, true⟩ ∈ t ∧ AckedBy Carries t := by
  obtain ⟨⟨s, t⟩, hexec, rfl⟩ := Option.map_eq_some_iff.mp foreignFirst_exec
  have hreach := (reach_udpLoopStart noHash udpSpec).exec hexec
  exact ⟨_, s, hreach, by simp, udp_ackedBy noHash hreach⟩

end Ipfusch
