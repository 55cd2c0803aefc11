import Ipfusch.QuicRun
import Ipfusch.RunReturns
import Ipfusch.UdpRun

/-!
# `run_benchmark` over UDP and QUIC returns

Once the time of a stream is over, its loop handles the packet that is in flight and ends. What is
there is read, whatever it is, and otherwise the timeout elapses. A paced loop may sleep before it
sends that packet, until it is due, which is no further ahead than the delay between two packets. So
no wait is longer than the timeout or this delay (`StreamRunSpec.longestWait`).

`udpRun_returns` : with the clock behind the ends of all streams, a run over UDP returns, whatever
the network, the server and other peers do. `quicRun_returns` : so does a run over QUIC, if the
connections take what is written. Its streams wait for their endpoints to get idle at the end, and
how long this takes is up to the connections.
-/

namespace Ipfusch

/-! ## The loop -/

/-- The work that is left of a loop that stops and waits, once its time is over. -/
def WaitPc.rank : WaitPc → ℕ
  | .done | .failed | .panicked => 0
  | .head => 1
  | .begin => 2
  | .recv _ _ _ => 3
  | .arm _ _ => 4
  | .measure _ => 5
  | .send _ => 6
  | .stamp => 7
  | .paceSleep _ => 8
  | .pace => 9

theorem waitTick_rank {spec : StreamRunSpec} {w w' : WaitState} {now : ℕ}
    (h : waitTick spec w now = some w') (hover : w.start + spec.warmup + spec.duration ≤ now) :
    w'.pc.rank < w.pc.rank := by
  unfold waitTick at h
  dsimp only at h
  cases hpc : w.pc with
  | begin | measure _ | arm _ _ =>
    simp only [hpc, Option.some.injEq] at h
    subst h
    simp only [WaitPc.rank]
    omega
  | head =>
    simp only [hpc, if_neg (not_lt.mpr hover), Option.some.injEq] at h
    subst h
    exact Nat.one_pos
  | paceSleep _ | stamp =>
    simp only [hpc] at h
    split_ifs at h <;> obtain rfl := Option.some.inj h <;> simp only [WaitPc.rank] <;> omega
  | pace =>
    simp only [hpc] at h
    split at h
    · obtain rfl := Option.some.inj h
      simp only [WaitPc.rank]
      omega
    · split_ifs at h <;> obtain rfl := Option.some.inj h <;> simp only [WaitPc.rank] <;> omega
  | send _ | recv _ _ _ | done | failed | panicked => simp only [hpc, reduceCtorEq] at h

/-- The loop does not wait for the network. -/
theorem waitTick_isSome (spec : StreamRunSpec) {w : WaitState} (hopen : w.pc.exit = none) {now : ℕ}
    (hsend : ∀ m, w.pc ≠ .send m) (hrecv : ∀ m b d, w.pc ≠ .recv m b d)
    (hsleep : ∀ d, w.pc = .paceSleep d → w.nextSend ≤ now) : (waitTick spec w now).isSome := by
  unfold waitTick
  dsimp only
  cases hpc : w.pc with
  | send m => exact absurd hpc (hsend m)
  | recv m b d => exact absurd hpc (hrecv m b d)
  | done | failed | panicked =>
    rw [hpc] at hopen
    cases hopen
  | paceSleep d =>
    dsimp only
    rw [if_pos (hsleep d hpc)]
    rfl
  | pace =>
    dsimp only
    split
    · rfl
    · split_ifs <;> rfl
  | head | stamp => dsimp only; split_ifs <;> rfl
  | begin | measure _ | arm _ _ => rfl

/-- The longest wait of the loop : for an echo, or until the next packet is due. -/
def StreamRunSpec.longestWait (spec : StreamRunSpec) : ℕ :=
  max spec.timeout ((pacingDelay spec.payloadBytes spec.rateBps).getD 0)

/-- Nothing that the loop waits for is further ahead. -/
structure WaitSoon (spec : StreamRunSpec) (clock : ℕ) (w : WaitState) : Prop where
  deadline : ∀ {sendMonoNs measured deadline}, w.pc = .recv sendMonoNs measured deadline →
    deadline ≤ clock + spec.timeout
  delay : ∀ {delay}, w.pc = .paceSleep delay →
    pacingDelay spec.payloadBytes spec.rateBps = some delay
  due : w.nextSend ≤ clock + (pacingDelay spec.payloadBytes spec.rateBps).getD 0

theorem WaitSoon.tick {spec : StreamRunSpec} {clock : ℕ} {w w' : WaitState}
    (h : WaitSoon spec clock w) (htick : waitTick spec w clock = some w') :
    WaitSoon spec clock w' := by
  unfold waitTick at htick
  dsimp only at htick
  cases hpc : w.pc with
  | begin =>
    simp only [hpc, Option.some.injEq] at htick
    subst htick
    exact ⟨nofun, nofun, Nat.le_add_right _ _⟩
  | head | stamp =>
    simp only [hpc] at htick
    split_ifs at htick <;> obtain rfl := Option.some.inj htick <;> exact ⟨nofun, nofun, h.due⟩
  | pace =>
    simp only [hpc] at htick
    cases hdelay : pacingDelay spec.payloadBytes spec.rateBps with
    | none =>
      simp only [hdelay, Option.some.injEq] at htick
      subst htick
      exact ⟨nofun, nofun, h.due⟩
    | some delay =>
      have hdue := h.due
      simp only [hdelay] at htick
      split_ifs at htick with hlt <;> obtain rfl := Option.some.inj htick
      · exact ⟨nofun, fun heq => WaitPc.paceSleep.inj heq ▸ hdelay, hdue⟩
      · refine ⟨nofun, nofun, ?_⟩
        rw [hdelay]
        exact Nat.add_le_add_right (not_lt.mp hlt) delay
  | paceSleep delay =>
    have hdelay := h.delay hpc
    simp only [hpc] at htick
    split_ifs at htick with hle
    obtain rfl := Option.some.inj htick
    refine ⟨nofun, nofun, ?_⟩
    rw [hdelay]
    exact Nat.add_le_add_right hle delay
  | measure _ =>
    simp only [hpc, Option.some.injEq] at htick
    subst htick
    exact ⟨nofun, nofun, h.due⟩
  | arm _ _ =>
    simp only [hpc, Option.some.injEq] at htick
    subst htick
    exact ⟨fun heq => (WaitPc.recv.inj heq).2.2 ▸ le_rfl, nofun, h.due⟩
  | send _ | recv _ _ _ | done | failed | panicked => simp only [hpc, reduceCtorEq] at htick

/-- Each step keeps the bound. -/
theorem waitSoon {β : Type} (spec : StreamRunSpec) :
    WaitInvariant (β := β) spec fun clock _ w => WaitSoon spec clock w where
  start _ := ⟨nofun, nofun, Nat.zero_le _⟩
  wait h hle := ⟨fun hpc => (h.deadline hpc).trans (Nat.add_le_add_right hle _), h.delay,
    h.due.trans (Nat.add_le_add_right hle _)⟩
  arrived h _ _ := h
  tick h htick := h.tick htick
  sent h _ := ⟨nofun, nofun, h.due⟩
  sendFails h _ := ⟨nofun, nofun, h.due⟩
  report h _ _ := ⟨nofun, nofun, h.due⟩
  decodeFailed h _ := ⟨nofun, nofun, h.due⟩

/-- The wait for an echo is no longer than the longest one. -/
theorem WaitSoon.recv_le {spec : StreamRunSpec} {clock : ℕ} {w : WaitState}
    (h : WaitSoon spec clock w) {sendMonoNs deadline : ℕ} {measured : Bool}
    (hpc : w.pc = .recv sendMonoNs measured deadline) : deadline - clock ≤ spec.longestWait := by
  have hdeadline := h.deadline hpc
  exact (show deadline - clock ≤ spec.timeout by omega).trans (le_max_left _ _)

/-- So is the sleep before a packet. -/
theorem WaitSoon.sleep_le {spec : StreamRunSpec} {clock : ℕ} {w : WaitState}
    (h : WaitSoon spec clock w) : w.nextSend - clock ≤ spec.longestWait := by
  have hdue := h.due
  refine (?_ : _ ≤ (pacingDelay spec.payloadBytes spec.rateBps).getD 0).trans (le_max_right _ _)
  omega

/-- All streams of a run wait equally long. -/
def RunConfig.longestWait (cfg : RunConfig) : ℕ :=
  (cfg.streamSpec 0 0).longestWait

/-- Whatever header is read, the loop goes on with the next packet, or is left. -/
theorem onHeader_cases {β : Type} (spec : StreamRunSpec) (w : WaitState) (sendMonoNs : ℕ)
    (measured : Bool) (ack : List UInt8) (now : ℕ) :
    (∃ e, onHeader (β := β) spec w sendMonoNs measured ack now =
        ({ w with pc := .head }, [.event e])) ∨
      onHeader (β := β) spec w sendMonoNs measured ack now =
        ({ w with pc := .failed }, [.decodeFailed w.seq]) := by
  unfold onHeader
  split
  · exact .inr rfl
  · exact .inl ⟨_, rfl⟩

/-- So it is with a datagram. -/
theorem onEcho_cases (spec : StreamRunSpec) (w : WaitState) (sendMonoNs : ℕ) (measured : Bool)
    (frame : List UInt8) (now : ℕ) :
    (∃ e, onEcho spec w sendMonoNs measured frame now = ({ w with pc := .head }, [.event e])) ∨
      onEcho spec w sendMonoNs measured frame now =
        ({ w with pc := .failed }, [.decodeFailed w.seq]) := by
  unfold onEcho
  dsimp only
  split_ifs
  · exact onHeader_cases spec w sendMonoNs measured _ now
  · exact .inl ⟨_, rfl⟩

/-- A rank that gets lower pays for a step and for an event. -/
theorem pays_of_lt {r r' k : ℕ} {own : Bool} (hlt : r' < r) (hk : k ≤ 1) :
    r' + (if own = true then 1 else 0) ≤ r ∧ r' + k ≤ r := by
  refine ⟨?_, by omega⟩
  split_ifs <;> omega

/-! ## UDP -/

/-- The time of the client's loop is over, or its handshake has failed. -/
def UdpClient.overdue (spec : StreamRunSpec) (clock : ℕ) : UdpClient → Bool
  | .data w => w.start + spec.warmup + spec.duration ≤ clock
  | .failed => true
  | .hello | .arm | .awaitAck _ | .ready => false

/-- The work that is left of the client. -/
def UdpClient.rank : UdpClient → ℕ
  | .data w => w.pc.rank
  | _ => 0

/-- A step of the client. -/
def UdpAction.ofClient {Peer : Type} : UdpAction Peer → Bool
  | .tick | .sendFails | .recv | .recvFails | .elapsed => true
  | .wait _ | .serve _ _ | .serveOther _ _ _ | .arrive _ => false

/-- How much time passes. -/
def UdpAction.time {Peer : Type} : UdpAction Peer → ℕ
  | .wait n => n
  | _ => 0

theorem UdpAction.time_ofClient {Peer : Type} {a : UdpAction Peer} (h : a.ofClient = true) :
    a.time = 0 := by
  cases a with
  | wait n => cases h
  | tick | sendFails | recv | recvFails | elapsed | serve _ _ | serveOther _ _ _ | arrive _ => rfl

theorem UdpClient.overdue_mono {spec : StreamRunSpec} {clock clock' : ℕ} {c : UdpClient}
    (h : c.overdue spec clock = true) (hle : clock ≤ clock') : c.overdue spec clock' = true := by
  cases c with
  | data w => exact decide_eq_true ((of_decide_eq_true h).trans hle)
  | failed => rfl
  | hello | arm | awaitAck _ | ready => cases h

section UdpStream

variable (sha256 : List UInt8 → Digest) {Peer : Type} [DecidableEq Peer] {token : Option String}
  {spec : StreamRunSpec} {me : Peer} {s s' : UdpState Peer} {a : UdpAction Peer} {o : List UdpObs}

/-- Time does not go back. -/
theorem udpMove_clock (h : UdpMove sha256 token spec me s a s' o) : s.clock ≤ s'.clock := by
  cases h with
  | wait n => exact Nat.le_add_right _ _
  | serve i frame sendOk _ _ => exact (onServe_client sha256 token me me frame sendOk s).1.ge
  | serveOther peer frame sendOk _ _ =>
    exact (onServe_client sha256 token me peer frame sendOk s).1.ge
  | tick _ _ _ _ | helloFails _ | sendFails _ _ _ _ | ack _ _ _ _ _ | took _ _ _ _ _ _ _ _ _
  | ackFails _ _ _ | lost _ _ _ _ _ _ _ | arrive _ _ _ => exact le_rfl

/-- Each step of the client lowers the work that is left, and so does each event. -/
theorem udpMove_rank (h : UdpMove sha256 token spec me s a s' o)
    (hover : s.client.overdue spec s.clock = true) :
    s'.client.overdue spec s'.clock = true ∧
      s'.client.rank + (if a.ofClient = true then 1 else 0) ≤ s.client.rank ∧
      s'.client.rank + (waitEvents o).length ≤ s.client.rank := by
  cases h with
  | wait n => exact ⟨UdpClient.overdue_mono hover (Nat.le_add_right _ _), le_rfl, le_rfl⟩
  | arrive _ _ _ => exact ⟨hover, le_rfl, le_rfl⟩
  | serve i frame sendOk _ _ =>
    obtain ⟨hclock, hclient, -⟩ := onServe_client sha256 token me me frame sendOk s
    rw [hclock, hclient]
    exact ⟨hover, le_rfl, le_rfl⟩
  | serveOther peer frame sendOk _ _ =>
    obtain ⟨hclock, hclient, -⟩ := onServe_client sha256 token me peer frame sendOk s
    rw [hclock, hclient]
    exact ⟨hover, le_rfl, le_rfl⟩
  | tick client frames o htick =>
    cases hclient : s.client with
    | hello | arm | awaitAck _ | ready =>
      rw [hclient] at hover
      cases hover
    | failed =>
      rw [hclient] at htick
      cases htick
    | data w =>
      rw [hclient] at htick hover
      cases udpTick_cases sha256 htick with
      | sent _ m hpc =>
        have hlt : 5 < (UdpClient.data w).rank := by
          rw [UdpClient.rank, hpc]
          exact Nat.lt_succ_self 5
        exact ⟨hover, pays_of_lt hlt (Nat.zero_le 1)⟩
      | loop _ w' hloop =>
        have hlt := waitTick_rank hloop (of_decide_eq_true hover)
        refine ⟨?_, pays_of_lt hlt (Nat.zero_le 1)⟩
        rw [UdpClient.overdue, waitTick_start hloop]
        exact hover
  | helloFails hclient | ack _ _ _ hclient _ | ackFails _ _ hclient =>
    rw [hclient] at hover
    cases hover
  | sendFails w m hclient hpc =>
    rw [hclient] at hover ⊢
    have hlt : 0 < (UdpClient.data w).rank := by
      rw [UdpClient.rank, hpc]
      exact Nat.succ_pos 5
    exact ⟨hover, pays_of_lt hlt (Nat.zero_le 1)⟩
  | took w m b d frame socket hclient hpc hsocket =>
    rw [hclient] at hover ⊢
    have hlt : 1 < (UdpClient.data w).rank := by
      rw [UdpClient.rank, hpc]
      exact Nat.lt_succ_of_lt (Nat.lt_succ_self 1)
    rcases onEcho_cases spec w m b frame s.clock with ⟨e, heq⟩ | heq
    · rw [heq]
      exact ⟨hover, pays_of_lt hlt le_rfl⟩
    · rw [heq]
      exact ⟨hover, pays_of_lt (Nat.lt_of_succ_lt hlt) (Nat.zero_le 1)⟩
  | lost _ w m b d hclient hpc =>
    rw [hclient] at hover ⊢
    have hlt : 1 < (UdpClient.data w).rank := by
      rw [UdpClient.rank, hpc]
      exact Nat.lt_succ_of_lt (Nat.lt_succ_self 1)
    exact ⟨hover, pays_of_lt hlt le_rfl⟩

/-- The client goes on, at the latest when its longest wait is over. -/
theorem udp_goesOn (token : Option String) (spec : StreamRunSpec) (me : Peer) {w : WaitState}
    (hclient : s.client = .data w) (hopen : w.pc.exit = none) (hsoon : WaitSoon spec s.clock w) :
    ∃ n a, n ≤ spec.longestWait ∧ a.ofClient = true ∧
      (udpStep sha256 token spec me { s with clock := s.clock + n } a).isSome := by
  by_cases hsend : ∃ m, w.pc = .send m
  · obtain ⟨m, hpc⟩ := hsend
    exact ⟨0, .tick, Nat.zero_le _, rfl, by simp [udpStep, udpTick, hclient, hpc]⟩
  by_cases hrecv : ∃ m b d, w.pc = .recv m b d
  · obtain ⟨m, b, d, hpc⟩ := hrecv
    cases hsocket : s.socket with
    | nil =>
      refine ⟨d - s.clock, .elapsed, hsoon.recv_le hpc, rfl, ?_⟩
      have hdeadline : d ≤ s.clock + (d - s.clock) := by omega
      simp [udpStep, hclient, hpc, hdeadline]
    | cons frame socket =>
      exact ⟨0, .recv, Nat.zero_le _, rfl, by simp [udpStep, hclient, hpc]⟩
  refine ⟨w.nextSend - s.clock, .tick, hsoon.sleep_le, rfl, ?_⟩
  have hnext : w.nextSend ≤ s.clock + (w.nextSend - s.clock) := by omega
  have htick := waitTick_isSome spec hopen (fun m hpc => hsend ⟨m, hpc⟩)
    (fun m b d hpc => hrecv ⟨m, b, d, hpc⟩) fun _ _ => hnext
  have hloop : udpTick sha256 spec (s.clock + (w.nextSend - s.clock)) (.data w) =
      (waitTick spec w (s.clock + (w.nextSend - s.clock))).map fun s => (.data s, [], []) := by
    unfold udpTick
    dsimp only
    split
    · rename_i m hpc
      exact absurd ⟨m, hpc⟩ hsend
    · rfl
  unfold udpStep
  dsimp only
  rw [hclient, hloop, Option.isSome_map, Option.isSome_map]
  exact htick

end UdpStream

section UdpRun

variable (sha256 : List UInt8 → Digest) {Peer : Type} [DecidableEq Peer]

/-- The time of all streams is over. -/
def UdpOverdue (cfg : RunConfig) (sessionId : UInt64) (s : UdpFleet (Fin cfg.streams.toNat) Peer) :
    Prop :=
  ∀ j, (s.member j).client.overdue (cfg.streamSpec sessionId j) s.clock = true

/-- The work that is left of all streams. -/
def udpRank {n : ℕ} (s : UdpFleet (Fin n) Peer) : ℕ :=
  ∑ j, (s.member j).client.rank

omit [DecidableEq Peer] in
theorem udpRank_put {n : ℕ} (s : UdpFleet (Fin n) Peer) {i : Fin n} {u : UdpState Peer} {k : ℕ}
    (h : u.client.rank + k ≤ (s.member i).client.rank) : udpRank (s.put i u) + k ≤ udpRank s :=
  Fleet.sum_update_add_le (c := ⟨u.client, u.socket, u.toServer, u.toClient⟩)
    (fun _ m => m.client.rank) s.member h

variable {cfg : RunConfig} {sessionId : UInt64} {token : Option String}
  {peer : Fin cfg.streams.toNat ↪ Peer} {s s' : UdpFleet (Fin cfg.streams.toNat) Peer}

omit [DecidableEq Peer] in
theorem UdpOverdue.put (h : UdpOverdue cfg sessionId s) {i : Fin cfg.streams.toNat}
    {u : UdpState Peer} (hclock : s.clock ≤ u.clock)
    (hover : u.client.overdue (cfg.streamSpec sessionId i) u.clock = true) :
    UdpOverdue cfg sessionId (s.put i u) := by
  intro j
  unfold UdpFleet.put
  dsimp only
  by_cases hj : j = i
  · subst hj
    rw [Function.update_self]
    exact hover
  · rw [Function.update_of_ne hj]
    exact UdpClient.overdue_mono (h j) hclock

theorem udpStreams_rank {a : Fin cfg.streams.toNat × UdpAction Peer}
    {o : List (Fin cfg.streams.toNat × UdpObs)} (h : UdpOverdue cfg sessionId s)
    (hs : (udpStreams sha256 cfg sessionId token peer).step s a = some (s', o)) :
    UdpOverdue cfg sessionId s' ∧
      udpRank s' + (if a.2.ofClient = true then 1 else 0) ≤ udpRank s ∧
      udpRank s' + (o.filterMap fun ob => ob.2.event?).length ≤ udpRank s := by
  obtain ⟨-, u, o', hu, rfl, rfl⟩ := udpFleet_cases sha256 hs
  have hmove := udpStep_move sha256 hu
  obtain ⟨hover, hown, hevents⟩ := udpMove_rank sha256 hmove (h a.1)
  rw [List.filterMap_map]
  exact ⟨h.put (udpMove_clock sha256 hmove) hover, udpRank_put s hown, udpRank_put s hevents⟩

/-- A stream that has not ended goes on. -/
theorem udpStreams_goesOn (h : UdpOverdue cfg sessionId s)
    {t : List (Fin cfg.streams.toNat × UdpObs)}
    (hr : (udpStreams sha256 cfg sessionId token peer).Reach t s) {i : Fin cfg.streams.toNat}
    (hi : (s.member i).client.exit = none) :
    ∃ n a, n ≤ cfg.longestWait ∧ a.ofClient = true ∧
      ((udpStreams sha256 cfg sessionId token peer).exec s [(i, .wait n), (i, a)]).isSome := by
  have hover := h i
  cases hclient : (s.member i).client with
  | hello | arm | awaitAck _ | ready =>
    rw [hclient] at hover
    cases hover
  | failed =>
    rw [hclient] at hi
    cases hi
  | data w =>
    rw [hclient] at hi
    have hreach := udpStreams_reach sha256 hr i
    obtain ⟨w', hw', hsoon⟩ := ((waitSoon (cfg.streamSpec sessionId i)).udp_reach sha256
      hreach).resolve_right fun hdata => hdata.1 w hclient
    obtain rfl := UdpClient.data.inj (hclient.symm.trans hw')
    obtain ⟨n, a, hn, hown, hsome⟩ := udp_goesOn sha256 token (cfg.streamSpec sessionId i) (peer i)
      (s := s.view i) hclient hi hsoon
    obtain ⟨⟨u, o⟩, hu⟩ := Option.isSome_iff_exists.mp hsome
    have hother : fromOther peer a = true := by
      cases a with
      | serveOther _ _ _ => cases hown
      | wait _ | tick | sendFails | recv | recvFails | elapsed | serve _ _ | arrive _ => rfl
    have hwait : (udpStreams sha256 cfg sessionId token peer).step s (i, .wait n) =
        some (s.put i { s.view i with clock := (s.view i).clock + n }, []) := rfl
    have hstep : (udpStreams sha256 cfg sessionId token peer).step
        (s.put i { s.view i with clock := (s.view i).clock + n }) (i, a) =
          some ((s.put i { s.view i with clock := (s.view i).clock + n }).put i u,
            o.map (Prod.mk i)) := by
      change (if fromOther peer a = true then (udpStep sha256 token (cfg.streamSpec sessionId i)
        (peer i) ((s.put i { s.view i with clock := (s.view i).clock + n }).view i) a).map _
          else none) = _
      rw [if_pos hother, UdpFleet.view_put_self, hu]
      rfl
    refine ⟨n, a, hn, hown, ?_⟩
    rw [Machine.exec, hwait]
    dsimp only
    rw [Machine.exec, hstep]
    rfl

variable (cfg sessionId token peer)

/-- Each stream of a run over UDP comes to its end. -/
def udpProgress : TaskProgress (udpTasks sha256 cfg sessionId token peer) where
  Good s := UdpOverdue cfg sessionId s ∧
    ∃ t, (udpStreams sha256 cfg sessionId token peer).Reach t s
  allowed _ := true
  own a := a.2.ofClient
  time a := a.2.time
  pause := cfg.longestWait
  waiting _ := false
  rank := udpRank
  step hgood _ hstep := by
    obtain ⟨hover, t, hreach⟩ := hgood
    obtain ⟨hover', hranks⟩ := udpStreams_rank sha256 hover hstep
    exact ⟨⟨hover', _, hreach.step hstep⟩, hranks⟩
  progress hgood hopen _ := by
    obtain ⟨hover, t, hreach⟩ := hgood
    obtain ⟨i, hi⟩ := StreamTasks.exists_open hopen
    obtain ⟨n, a, hn, hown, hsome⟩ := udpStreams_goesOn sha256 hover hreach hi
    refine ⟨[(i, .wait n), (i, a)], rfl, ?_, ?_, hsome⟩
    · rw [List.any_cons, List.any_cons, hown, Bool.true_or, Bool.or_true]
    · change n + (a.time + 0) ≤ cfg.longestWait
      rwa [UdpAction.time_ofClient hown]

variable {cfg sessionId token peer}

end UdpRun

/-- The only packet is lost, and time passes. -/
def oneUdpLost : List (Pipe.Action (Fin 1 × UdpAction (Fin 1)) (EngineAction (Fin 1))) :=
  [[.tick, .tick, .serve 0 true, .arrive 0, .recv].map fun a => .produce (onlyStream, a),
    List.replicate 8 (.produce (onlyStream, .tick)),
    [.wait 750000010].map fun a => .produce (onlyStream, a)].flatten

/-- The client's timeout elapses, and the run ends. -/
def oneUdpEnd : List (Pipe.Action (Fin 1 × UdpAction (Fin 1)) (EngineAction (Fin 1))) :=
  [.produce (onlyStream, .elapsed), .produce (onlyStream, .tick), .recv, .recv,
    .own (.join onlyStream .returned), .own .finish]

/-- What is left of it. -/
def oneUdpProgress : TaskProgress oneUdpTask :=
  udpProgress noHash oneUdpStream 7 (some "secret") (Function.Embedding.refl _)

theorem oneUdpEnd_exec :
    (((runSystem oneUdpTask (oneUdpStream.loopConfig 0)).machine.exec
      (runSystem oneUdpTask (oneUdpStream.loopConfig 0)).machine.init oneUdpLost).bind
        fun r => ((runSystem oneUdpTask (oneUdpStream.loopConfig 0)).machine.exec r.1
          oneUdpEnd).map fun r' => (decide (∀ j, (r.1.producer.member j).client.overdue
            (oneUdpStream.streamSpec 7 j) r.1.producer.clock = true),
              oneUdpProgress.left r.1, r'.1.consumer.pc.isOk)) = some (true, 9, true) := by
  decide +kernel

section QuicStream

variable {spec : StreamRunSpec} {s s' : QuicEchoState} {a : QuicEchoAction} {o : List QuicEchoObs}

/-- The time of the client's loop is over. -/
def QuicEchoState.overdue (spec : StreamRunSpec) (s : QuicEchoState) : Bool :=
  s.client.start + spec.warmup + spec.duration ≤ s.clock

/-- More than the bytes that are written or read at a point of the loop. -/
def QuicEchoState.room (s : QuicEchoState) : ℕ :=
  max dataHeaderSize s.frame.length + dataHeaderSize + 1

/-- The work that is left of the loop. -/
def QuicEchoState.rank (s : QuicEchoState) : ℕ :=
  s.client.pc.rank * s.room + s.unsent.length + (dataHeaderSize - s.got.length)

/-- A step of the client, or of the connection for it. -/
def QuicEchoAction.ofClient : QuicEchoAction → Bool
  | .tick | .writeFails | .readDone | .readFails | .elapsed => true
  | .write n | .read n => decide (0 < n)
  | .wait _ | .serverRead _ | .serverWrite _ | .serverNext | .serverEof | .arrive _ => false

/-- How much time passes. -/
def QuicEchoAction.time : QuicEchoAction → ℕ
  | .wait n => n
  | _ => 0

theorem QuicEchoAction.time_ofClient {a : QuicEchoAction} (h : a.ofClient = true) : a.time = 0 := by
  cases a with
  | wait n => cases h
  | tick | write _ | writeFails | serverRead _ | serverWrite _ | serverNext | serverEof | arrive _
  | read _ | readDone | readFails | elapsed => rfl

/-- Where the loop goes on, the bytes do not matter. -/
theorem QuicEchoState.rank_lt (hpc : s'.client.pc.rank < s.client.pc.rank)
    (hroom : s'.room = s.room)
    (hunsent : s'.unsent.length ≤ max s.unsent.length (max dataHeaderSize s.frame.length)) :
    s'.rank < s.rank := by
  have hmul : s'.client.pc.rank * s.room + s.room ≤ s.client.pc.rank * s.room := by
    rw [← Nat.succ_mul]
    exact Nat.mul_le_mul_right _ hpc
  unfold rank
  rw [hroom]
  unfold room at hmul ⊢
  omega

/-- The frame that is filled in fits. -/
theorem QuicEchoState.resume_room (spec : StreamRunSpec) (s : QuicEchoState) (client : WaitState) :
    (s.resume spec client).room = s.room ∧ (s.resume spec client).unsent.length ≤
      max s.unsent.length (max dataHeaderSize s.frame.length) := by
  unfold resume
  split
  · rename_i sendMonoNs _
    have hlen : (fillFrame s.frame (client.header spec sendMonoNs)).length =
        max dataHeaderSize s.frame.length := by
      rw [fillFrame, Bytes.copySlice, List.take_zero, List.nil_append, List.length_append,
        List.length_drop, DataHeader.length_encode]
      omega
    refine ⟨?_, ?_⟩
    · unfold room
      dsimp only
      rw [hlen, max_eq_right (le_max_left _ _)]
    · dsimp only
      rw [hlen]
      exact le_max_right _ _
  · exact ⟨rfl, le_max_left _ _⟩

/-- Each step of the client lowers the work that is left, and so does each event. -/
theorem quicEcho_rank (h : quicEchoStep spec s a = some (s', o)) (hover : s.overdue spec = true) :
    s'.overdue spec = true ∧ s'.rank + (if a.ofClient = true then 1 else 0) ≤ s.rank ∧
      s'.rank + (o.filterMap QuicEchoObs.event?).length ≤ s.rank := by
  cases quicEchoStep_move h with
  | wait n =>
    exact ⟨decide_eq_true ((of_decide_eq_true hover).trans (Nat.le_add_right _ _)), le_rfl, le_rfl⟩
  | arrive n hn => exact ⟨hover, le_rfl, le_rfl⟩
  | tick client htick =>
    obtain ⟨hclock, hclient⟩ := QuicEchoState.resume_client spec s client
    obtain ⟨hroom, hunsent⟩ := QuicEchoState.resume_room spec s client
    have hlt := waitTick_rank htick (of_decide_eq_true hover)
    have hstart := waitTick_start htick
    refine ⟨?_, pays_of_lt (QuicEchoState.rank_lt (by rwa [hclient]) hroom hunsent) (Nat.zero_le 1)⟩
    rw [QuicEchoState.overdue, hclient, hclock, hstart]
    exact hover
  | chunk n m hpc hn =>
    have hdrop : (s.unsent.drop n).length = s.unsent.length - n := List.length_drop
    refine ⟨hover, ?_, ?_⟩
    · simp only [QuicEchoState.rank, QuicEchoState.room, hdrop, QuicEchoAction.ofClient,
        decide_eq_true_eq]
      split_ifs <;> omega
    · simp only [QuicEchoState.rank, QuicEchoState.room, hdrop, List.filterMap_nil,
        List.length_nil]
      omega
  | written n m hpc hn =>
    refine ⟨hover, pays_of_lt (QuicEchoState.rank_lt ?_ rfl (Nat.zero_le _)) (Nat.zero_le 1)⟩
    rw [hpc]
    exact Nat.lt_succ_self 5
  | writeFails m hpc =>
    refine ⟨hover, pays_of_lt (QuicEchoState.rank_lt ?_ rfl (le_max_left _ _)) (Nat.zero_le 1)⟩
    rw [hpc]
    exact Nat.succ_pos 5
  | serverRead n e o he =>
    rw [filterMap_quicEvent?, filterMap_client_server]
    exact ⟨hover, le_rfl, le_rfl⟩
  | server a b e o ha he =>
    have hown : a.ofClient = false := by cases a <;> first | rfl | cases ha
    rw [filterMap_quicEvent?, filterMap_client_server, hown]
    exact ⟨hover, le_rfl, le_rfl⟩
  | read n m b d hpc hn =>
    have hgot : (s.got ++ s.stream.take n).length = s.got.length + n := by
      rw [List.length_append, List.length_take, min_eq_left hn.2]
    refine ⟨hover, ?_, ?_⟩
    · simp only [QuicEchoState.rank, QuicEchoState.room, hgot, QuicEchoAction.ofClient,
        decide_eq_true_eq]
      split_ifs <;> omega
    · simp only [QuicEchoState.rank, QuicEchoState.room, hgot, List.filterMap_nil,
        List.length_nil]
      omega
  | readDone m b d hpc hlen =>
    have hlt : 1 < s.client.pc.rank := by
      rw [hpc]
      exact Nat.lt_succ_of_lt (Nat.lt_succ_self 1)
    rcases onHeader_cases (β := ℕ) spec s.client m b s.got s.clock with ⟨e, heq⟩ | heq
    · simp only [heq]
      exact ⟨hover, pays_of_lt (QuicEchoState.rank_lt hlt rfl (le_max_left _ _)) le_rfl⟩
    · simp only [heq]
      have hlt := Nat.lt_of_succ_lt hlt
      exact ⟨hover, pays_of_lt (QuicEchoState.rank_lt hlt rfl (le_max_left _ _)) (Nat.zero_le 1)⟩
  | lost a m b d hpc hlen ha =>
    refine ⟨hover, pays_of_lt (QuicEchoState.rank_lt ?_ rfl (le_max_left _ _)) le_rfl⟩
    rw [hpc]
    exact Nat.lt_succ_of_lt (Nat.lt_succ_self 1)

/-- `read_exact` does not read more than its buffer holds. -/
theorem quicEcho_got (h : quicEchoStep spec s a = some (s', o))
    (hgot : s.got.length ≤ dataHeaderSize) : s'.got.length ≤ dataHeaderSize := by
  cases quicEchoStep_move h with
  | wait _ | chunk _ _ _ _ | written _ _ _ _ | writeFails _ _ | serverRead _ _ _ _
  | server _ _ _ _ _ _ | arrive _ _ => exact hgot
  | tick client htick =>
    unfold QuicEchoState.resume
    split <;> exact hgot
  | read n m b d hpc hn =>
    dsimp only
    rw [List.length_append, List.length_take]
    omega
  | readDone _ _ _ _ _ | lost _ _ _ _ _ _ _ => exact Nat.zero_le _

/-- The loop goes on, at the latest when its longest wait is over. -/
theorem quicEcho_goesOn (spec : StreamRunSpec) (hgot : s.got.length ≤ dataHeaderSize)
    (hopen : s.client.pc.exit = none) (hsoon : WaitSoon spec s.clock s.client) :
    ∃ n a, n ≤ spec.longestWait ∧ a.ofClient = true ∧
      (quicEchoStep spec { s with clock := s.clock + n } a).isSome := by
  by_cases hsend : ∃ m, s.client.pc = .send m
  · obtain ⟨m, hpc⟩ := hsend
    refine ⟨0, .write (s.unsent.length + 1), Nat.zero_le _,
      decide_eq_true (Nat.succ_pos s.unsent.length), ?_⟩
    simp [quicEchoStep, hpc]
  by_cases hrecv : ∃ m b d, s.client.pc = .recv m b d
  · obtain ⟨m, b, d, hpc⟩ := hrecv
    by_cases hfull : s.got.length = dataHeaderSize
    · exact ⟨0, .readDone, Nat.zero_le _, rfl, by simp [quicEchoStep, hpc, hfull]⟩
    have hlt : s.got.length < dataHeaderSize := lt_of_le_of_ne hgot hfull
    cases hstream : s.stream with
    | nil =>
      refine ⟨d - s.clock, .elapsed, hsoon.recv_le hpc, rfl, ?_⟩
      have hdeadline : d ≤ s.clock + (d - s.clock) := by omega
      simp [quicEchoStep, hpc, hlt, hdeadline]
    | cons byte stream =>
      refine ⟨0, .read 1, Nat.zero_le _, rfl, ?_⟩
      have hroom : 1 ≤ dataHeaderSize - s.got.length := by omega
      simp [quicEchoStep, hpc, hroom]
  refine ⟨s.client.nextSend - s.clock, .tick, hsoon.sleep_le, rfl, ?_⟩
  have hnext : s.client.nextSend ≤ s.clock + (s.client.nextSend - s.clock) := by omega
  have htick := waitTick_isSome spec hopen (fun m hpc => hsend ⟨m, hpc⟩)
    (fun m b d hpc => hrecv ⟨m, b, d, hpc⟩) fun _ _ => hnext
  unfold quicEchoStep
  dsimp only
  rw [Option.isSome_map]
  exact htick

end QuicStream

section QuicRun

variable (cfg : RunConfig) (sessionId : UInt64)

/-- A step of the client, or of the connection for it. That the endpoint gets idle is none. -/
def QuicTaskAction.ofClient : QuicTaskAction → Bool
  | .step a => a.ofClient
  | .idle => false

/-- How much time passes. -/
def QuicTaskAction.time : QuicTaskAction → ℕ
  | .step a => a.time
  | .idle => 0

/-- The loop was left, and the endpoint is not idle. -/
def QuicTaskState.closing (s : QuicTaskState) : Bool :=
  decide (s.echo.client.pc = .done) && !s.idle

/-- The stream waits for its endpoint. -/
def awaitsIdle : Fleet.Stage ℕ SetUpFailure QuicTaskState → Bool
  | .running _ s => s.closing
  | .before | .failed _ => false

/-- A task that has not ended is in its loop, unless it waits for its endpoint. -/
theorem QuicTaskState.exit_of_not_closing {s : QuicTaskState} (h : s.exit = none)
    (hclosing : s.closing = false) : s.echo.client.pc.exit = none := by
  unfold exit at h
  split at h
  · rename_i hpc
    split_ifs at h with hidle
    rw [closing, hpc, Bool.eq_false_of_not_eq_true hidle] at hclosing
    cases hclosing
  · exact h

/-- The set-up of a stream is over, and the time of its loop, too. -/
def quicOverdue (i : Fin cfg.streams.toNat) :
    Fleet.Stage ℕ SetUpFailure QuicTaskState → Bool
  | .before => false
  | .failed _ => true
  | .running _ s => s.echo.overdue (cfg.streamSpec sessionId i)

/-- Each stream comes to its end. -/
def quicStreamProgress : StreamProgress (quicStreams cfg sessionId) QuicEchoObs.event?
    QuicTaskState.exit where
  Good i start s := s.echo.overdue (cfg.streamSpec sessionId i) = true ∧
    ∃ t, (quicStreams cfg sessionId i start).Reach t s
  allowed _ := true
  own := QuicTaskAction.ofClient
  time := QuicTaskAction.time
  pause := cfg.longestWait
  waiting := QuicTaskState.closing
  rank _ s := s.echo.rank
  step {i start s a s' o} hgood _ hstep := by
    obtain ⟨hover, t, hreach⟩ := hgood
    have hreach' := hreach.step hstep
    cases a with
    | step a =>
      obtain ⟨⟨echo, o'⟩, hecho, heq⟩ := Option.map_eq_some_iff.mp hstep
      obtain ⟨rfl, rfl⟩ := Prod.mk.inj heq
      obtain ⟨hover', hranks⟩ := quicEcho_rank hecho hover
      exact ⟨⟨hover', _, hreach'⟩, hranks⟩
    | idle =>
      unfold quicStreams quicTask at hstep
      dsimp only at hstep
      split at hstep
      · obtain ⟨rfl, rfl⟩ := Prod.mk.inj (Option.some.inj hstep)
        exact ⟨⟨hover, _, hreach'⟩, le_rfl, le_rfl⟩
      · cases hstep
  progress {i start s} hgood hopen hwaiting := by
    obtain ⟨-, t, hreach⟩ := hgood
    have hgot : s.echo.got.length ≤ dataHeaderSize := (quicTask_reach hreach).invariant
      (I := fun _ s => s.got.length ≤ dataHeaderSize) (Nat.zero_le _)
      fun _ hgot hstep => quicEcho_got hstep hgot
    have hsoon := quicTask_invariant hreach (waitSoon (cfg.streamSpec sessionId i))
    obtain ⟨n, a, hn, hown, hsome⟩ := quicEcho_goesOn (cfg.streamSpec sessionId i) hgot
      (QuicTaskState.exit_of_not_closing hopen hwaiting) hsoon
    obtain ⟨⟨echo, o⟩, hecho⟩ := Option.isSome_iff_exists.mp hsome
    have hwait : (quicStreams cfg sessionId i start).step s (.step (.wait n)) =
        some ({ s with echo := { s.echo with clock := s.echo.clock + n } }, []) := rfl
    have hstep : (quicStreams cfg sessionId i start).step
        { s with echo := { s.echo with clock := s.echo.clock + n } } (.step a) =
          some ({ s with echo := echo }, o) :=
      congrArg (Option.map _) hecho
    refine ⟨[.step (.wait n), .step a], rfl, ?_, ?_, ?_⟩
    · rw [List.any_cons, List.any_cons, QuicTaskAction.ofClient, QuicTaskAction.ofClient, hown,
        Bool.true_or, Bool.or_true]
    · change n + (a.time + 0) ≤ cfg.longestWait
      rwa [QuicEchoAction.time_ofClient hown]
    · rw [Machine.exec, hwait]
      dsimp only
      rw [Machine.exec, hstep]
      rfl

/-- The run comes to its end. -/
def quicProgress : TaskProgress (quicTasks cfg sessionId) :=
  (quicStreamProgress cfg sessionId).tasks (quic_endsQuietly cfg sessionId)

variable {cfg sessionId}

end QuicRun

/-- The only packet is not echoed, and time passes. -/
def oneQuicLost : List (Pipe.Action (Fin 1 × Fleet.StageAction ℕ SetUpFailure QuicTaskAction)
    (EngineAction (Fin 1))) :=
  [[.produce (onlyStream, .enter 0)],
    [.tick, .tick, .tick, .tick, .write 20, .write 21, .tick, .tick,
      .wait 750000000].map fun a => .produce (onlyStream, .step (.step a))].flatten

/-- The client's timeout elapses, its endpoint gets idle, and the run ends. -/
def oneQuicEnd : List (Pipe.Action (Fin 1 × Fleet.StageAction ℕ SetUpFailure QuicTaskAction)
    (EngineAction (Fin 1))) :=
  [.produce (onlyStream, .step (.step .elapsed)), .produce (onlyStream, .step (.step .tick)),
    .produce (onlyStream, .step .idle), .recv, .recv, .own (.join onlyStream .returned),
    .own .finish]

theorem oneQuicEnd_exec :
    (((runSystem (quicTasks oneQuicStream 7) (oneQuicStream.loopConfig 0)).machine.exec
      (runSystem (quicTasks oneQuicStream 7) (oneQuicStream.loopConfig 0)).machine.init
        oneQuicLost).bind fun r =>
          ((runSystem (quicTasks oneQuicStream 7) (oneQuicStream.loopConfig 0)).machine.exec r.1
            oneQuicEnd).map fun r' =>
              (decide (∀ i, quicOverdue oneQuicStream 7 i (r.1.producer i)),
                (quicProgress oneQuicStream 7).left r.1, r'.1.consumer.pc.isOk)) =
      some (true, 575, true) := by
  decide +kernel

end Ipfusch
