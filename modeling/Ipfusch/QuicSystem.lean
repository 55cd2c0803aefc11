import Ipfusch.Machine
import Ipfusch.StopAndWait

/-!
# The QUIC client

`quicSystem` is `run_stream_quic` after its handshake, against a server that echoes the
header of each packet once and in order. The stream loses and reorders nothing, its bytes
become readable in chunks at any times, and `read_exact` consumes them as they arrive. A
read that fails or times out drops what it has consumed.

The client reads forty bytes for each packet it sends, from wherever the stream is.
`quicCorrect_of_readAll` : if no read fails, and each packet is sent only when all earlier echoes
have been read to their last byte, then the client decodes each header, and each packet reported as
lost is lost. `not_quicCorrect_split_echo` : after an echo that is split by a timeout, the next
header is not decoded.
-/

namespace Ipfusch

/-- What the client shows. What arrives is the number of echo bytes that became readable so
far. -/
abbrev QuicObs := WaitObs ℕ

/-- The client, and the stream from the server. -/
structure QuicState where
  clock : ℕ
  client : WaitState
  /-- The part of the buffer of `read_exact` that is filled. -/
  got : List UInt8
  /-- The bytes that can be read. -/
  stream : List UInt8
  /-- The bytes of echoes that cannot be read yet. -/
  owed : List UInt8
  /-- How many bytes became readable so far. -/
  echoed : ℕ

/-- What can come next. -/
inductive QuicAction
  /-- Time passes. -/
  | wait (n : ℕ)
  /-- The client's next step. -/
  | tick
  /-- The client's write fails. -/
  | sendFails
  /-- The next `n` bytes of echoes become readable. -/
  | arrive (n : ℕ)
  /-- `read_exact` consumes `n` bytes. -/
  | read (n : ℕ)
  /-- `read_exact` is complete. -/
  | readDone
  /-- `read_exact` fails. -/
  | readFails
  /-- The timeout elapses. -/
  | elapsed
  deriving DecidableEq, Repr

/-- One step of the system. -/
def quicStep (spec : StreamRunSpec) (s : QuicState) : QuicAction → Option (QuicState × List QuicObs)
  | .wait n => some ({ s with clock := s.clock + n }, [])
  | .tick =>
    match s.client.pc with
    | .send sendMonoNs =>
      some ({ s with
        client := { s.client with pc := .measure sendMonoNs }
        owed := s.owed ++ (s.client.header spec sendMonoNs).encode }, [.sent s.client.seq s.clock])
    | _ => (waitTick spec s.client s.clock).map fun client => ({ s with client := client }, [])
  | .sendFails =>
    match s.client.pc with
    | .send _ => some ({ s with client := { s.client with pc := .failed } }, [])
    | _ => none
  | .arrive n =>
    if n ≤ s.owed.length then
      some ({ s with
        stream := s.stream ++ s.owed.take n
        owed := s.owed.drop n
        echoed := s.echoed + n }, [.arrived (s.echoed + n) s.clock])
    else none
  | .read n =>
    match s.client.pc with
    | .recv _ _ _ =>
      if n ≤ dataHeaderSize - s.got.length ∧ n ≤ s.stream.length then
        some ({ s with got := s.got ++ s.stream.take n, stream := s.stream.drop n }, [])
      else none
    | _ => none
  | .readDone =>
    match s.client.pc with
    | .recv sendMonoNs measured _ =>
      if s.got.length = dataHeaderSize then
        let r := onHeader spec s.client sendMonoNs measured s.got s.clock
        some ({ s with client := r.1, got := [] }, r.2)
      else none
    | _ => none
  | .readFails =>
    match s.client.pc with
    | .recv sendMonoNs measured _ =>
      if s.got.length < dataHeaderSize then
        some ({ s with client := { s.client with pc := .head }, got := [] },
          [.event (s.client.report spec sendMonoNs measured none)])
      else none
    | _ => none
  | .elapsed =>
    match s.client.pc with
    | .recv sendMonoNs measured deadline =>
      -- `timeout` polls the read before it looks at the clock.
      if s.got.length < dataHeaderSize ∧ s.stream = [] ∧ deadline ≤ s.clock then
        some ({ s with client := { s.client with pc := .head }, got := [] },
          [.event (s.client.report spec sendMonoNs measured none)])
      else none
    | _ => none

/-- `run_stream_quic` from the start of its loop. -/
def quicSystem (spec : StreamRunSpec) (start : ℕ) : Machine QuicState QuicAction QuicObs where
  init :=
    { clock := start
      client := ⟨start, .begin, 0, 0⟩
      got := []
      stream := []
      owed := []
      echoed := 0 }
  step := quicStep spec

/-- With so many echo bytes readable, the echo of a packet is. -/
def EchoReadable (seq echoed : ℕ) : Prop :=
  dataHeaderSize * seq ≤ echoed

/-- The client decodes each header, and reports a packet as lost only if not all bytes of its
echo became readable before the timeout, counted from its send, was over. -/
def QuicCorrect (spec : StreamRunSpec) (t : List QuicObs) : Prop :=
  (∀ seq, .decodeFailed seq ∉ t) ∧ LossIsReal spec.timeout EchoReadable t

/-- The stream is reliable : no read fails. If the client sends a packet, then it has read all
earlier echoes to their last byte. -/
def readAll (s : QuicState) : QuicAction → Bool
  | .tick =>
    match s.client.pc with
    | .send _ => s.stream.isEmpty && s.owed.isEmpty
    | _ => true
  | .readFails => false
  | _ => true

/-! ## The position in the stream -/

/-- The packet that was sent and waits for its echo : its time stamp. -/
def WaitPc.echoing : WaitPc → Option ℕ
  | .measure sendMonoNs | .arm sendMonoNs _ | .recv sendMonoNs _ _ => some sendMonoNs
  | _ => none

/-- The stream is at the echo of the packet that waits. -/
structure QuicAligned (spec : StreamRunSpec) (t : List QuicObs) (s : QuicState) : Prop where
  seq_lt : s.client.seq < 2 ^ 64
  /-- There is an echo for each packet sent, and no other one. -/
  echoed_le : s.echoed + s.owed.length + (if s.client.pc.unsent then dataHeaderSize else 0) ≤
    dataHeaderSize * s.client.seq
  arrived_le : ∀ {echoed time}, .arrived echoed time ∈ t → echoed ≤ s.echoed
  echo : ∀ sendMonoNs, s.client.pc.echoing = some sendMonoNs →
    s.got ++ s.stream ++ s.owed = (s.client.header spec sendMonoNs).encode
  got_nil : (∀ sendMonoNs measured deadline, s.client.pc ≠ .recv sendMonoNs measured deadline) →
    s.got = []
  decoded : ∀ seq, .decodeFailed seq ∉ t
  timed : Timed spec s.clock t s.client
  real : LossIsReal spec.timeout EchoReadable t

theorem quicAligned_init (spec : StreamRunSpec) (start : ℕ) :
    QuicAligned spec [] (quicSystem spec start).init where
  seq_lt := Nat.two_pow_pos 64
  echoed_le := Nat.zero_le _
  arrived_le := nofun
  echo _ := nofun
  got_nil _ := rfl
  decoded _ := nofun
  timed := timed_init _ _ _ nofun
  real := nofun

section Steps

variable {spec : StreamRunSpec} {t : List QuicObs} {s : QuicState}

/-- A packet is written when nothing is left to read : only its own echo is owed. -/
theorem QuicAligned.sent (h : QuicAligned spec t s) {sendMonoNs : ℕ}
    (hpc : s.client.pc = .send sendMonoNs) (hstream : s.stream = []) (howed : s.owed = []) :
    QuicAligned spec (t ++ [.sent s.client.seq s.clock]) { s with
      client := { s.client with pc := .measure sendMonoNs }
      owed := s.owed ++ (s.client.header spec sendMonoNs).encode } := by
  have hgot : s.got = [] := h.got_nil (by simp [hpc])
  have heffect : WaitEffect (β := ℕ) spec s.clock s.client { s.client with pc := .measure sendMonoNs }
      [.sent s.client.seq s.clock] := .sent sendMonoNs hpc
  refine ⟨h.seq_lt, ?_, fun hmem => h.arrived_le (by simpa using hmem), fun m hm => ?_,
    fun _ => hgot, fun seq hmem => h.decoded seq (by simpa using hmem), h.timed.sent hpc,
    h.real.step h.timed heffect (by simp)⟩
  · have hle := h.echoed_le
    rw [howed, hpc] at hle
    rw [howed]
    simpa [WaitPc.unsent] using hle
  · obtain rfl : sendMonoNs = m := Option.some.inj hm
    rw [hgot, hstream, howed]
    simp

/-- The loop goes on, and the stream stays where it is. -/
theorem QuicAligned.ticked (h : QuicAligned spec t s) {client : WaitState}
    (htick : waitTick spec s.client s.clock = some client) :
    QuicAligned spec (t ++ []) { s with client := client } := by
  have heffect : WaitEffect (β := ℕ) spec s.clock s.client client [] := waitTick_effect htick
  have hgot : s.got = [] := by
    refine h.got_nil fun m b d hpc => ?_
    rw [waitTick] at htick
    simp [hpc] at htick
  have htimed : Timed spec s.clock (t ++ []) client := h.timed.step heffect (by simp)
  have hreal : LossIsReal spec.timeout EchoReadable (t ++ []) :=
    h.real.step h.timed heffect (by simp)
  have hle := h.echoed_le
  rw [List.append_nil] at htimed hreal ⊢
  cases heffect with
  | idle _ hseq hpc =>
    have hunsent : client.pc.unsent = false := by
      cases hc : client.pc <;> simp [hc, WaitPc.waiting, WaitPc.unsent] at hpc ⊢
    have hechoing : client.pc.echoing = none := by
      cases hc : client.pc <;> simp [hc, WaitPc.waiting, WaitPc.echoing] at hpc ⊢
    refine ⟨hseq ▸ h.seq_lt, ?_, h.arrived_le, fun m hm => ?_, fun _ => hgot, h.decoded, htimed,
      hreal⟩
    · dsimp only
      rw [hunsent, hseq]
      exact (Nat.le_add_right _ _).trans hle
    · cases hechoing.symm.trans hm
  | stamp _ hpc hlt hseq hpc' =>
    refine ⟨hseq ▸ hlt, ?_, h.arrived_le, fun m hm => ?_, fun _ => hgot, h.decoded, htimed, hreal⟩
    · dsimp only
      rw [hpc', hseq, Nat.mul_succ]
      exact Nat.add_le_add_right ((Nat.le_add_right _ _).trans hle) _
    · dsimp only at hm
      rw [hpc'] at hm
      cases hm
  | measured m b hpc =>
    refine ⟨h.seq_lt, ?_, h.arrived_le, fun m' hm => ?_, fun _ => hgot, h.decoded, htimed, hreal⟩
    · rw [hpc] at hle
      exact hle
    · exact h.echo m' (by rw [hpc]; exact hm)
  | arm m b hpc =>
    refine ⟨h.seq_lt, ?_, h.arrived_le, fun m' hm => ?_, fun _ => hgot, h.decoded, htimed, hreal⟩
    · rw [hpc] at hle
      exact hle
    · exact h.echo m' (by rw [hpc]; exact hm)

/-- Bytes become readable. -/
theorem QuicAligned.arrive (h : QuicAligned spec t s) {n : ℕ} (hn : n ≤ s.owed.length) :
    QuicAligned spec (t ++ [.arrived (s.echoed + n) s.clock]) { s with
      stream := s.stream ++ s.owed.take n
      owed := s.owed.drop n
      echoed := s.echoed + n } := by
  refine ⟨h.seq_lt, ?_, fun {echoed time} hmem => ?_, fun m hm => ?_, h.got_nil,
    fun seq hmem => h.decoded seq (by simpa using hmem), h.timed.arrived _ _,
    h.real.arrived h.timed _⟩
  · have hle := h.echoed_le
    dsimp only
    rw [List.length_drop]
    omega
  · rcases List.mem_append.mp hmem with hmem | hmem
    · exact (h.arrived_le hmem).trans (Nat.le_add_right _ _)
    · obtain ⟨rfl, -⟩ : echoed = s.echoed + n ∧ time = s.clock := by simpa using hmem
      exact le_rfl
  · rw [← h.echo m hm]
    simp

/-- The read is complete : it has read the echo. -/
theorem QuicAligned.readDone (h : QuicAligned spec t s) {sendMonoNs deadline : ℕ} {measured : Bool}
    (hpc : s.client.pc = .recv sendMonoNs measured deadline)
    (hlen : s.got.length = dataHeaderSize) :
    QuicAligned spec (t ++ (onHeader spec s.client sendMonoNs measured s.got s.clock).2)
      { s with
        client := (onHeader (β := ℕ) spec s.client sendMonoNs measured s.got s.clock).1
        got := [] } := by
  have hecho := h.echo sendMonoNs (by rw [hpc]; rfl)
  have hgot : s.got = (s.client.header spec sendMonoNs).encode := by
    rw [List.append_assoc] at hecho
    have htake := congrArg (List.take dataHeaderSize) hecho
    rwa [← hlen, List.take_left, List.take_of_length_le (by simp [hlen])] at htake
  have hdecode : DataHeader.decode s.got = .ok (s.client.header spec sendMonoNs) := by
    rw [hgot]
    exact DataHeader.decode_encode_new _ _ _ _ _
  have hseq : (s.client.header spec sendMonoNs).seq.toNat = s.client.seq :=
    UInt64.toNat_ofNat_of_lt' h.seq_lt
  rw [onHeader_of_seq hdecode hseq]
  have heffect : WaitEffect (β := ℕ) spec s.clock s.client { s.client with pc := .head }
      [.event (s.client.report spec sendMonoNs measured (some s.clock))] :=
    .report sendMonoNs measured deadline _ hpc
  refine ⟨h.seq_lt, ?_, fun hmem => h.arrived_le (by simpa using hmem), nofun, fun _ => rfl,
    fun seq hmem => h.decoded seq (by simpa using hmem), h.timed.report hpc nofun,
    h.real.step h.timed heffect fun e he hnone => ?_⟩
  · have hle := h.echoed_le
    rw [hpc] at hle
    exact hle
  · obtain rfl : e = s.client.report spec sendMonoNs measured (some s.clock) := by simpa using he
    cases hnone

/-- The timeout elapses : the last byte of the echo is not readable. -/
theorem QuicAligned.elapsed (h : QuicAligned spec t s) {sendMonoNs deadline : ℕ} {measured : Bool}
    (hpc : s.client.pc = .recv sendMonoNs measured deadline)
    (hlen : s.got.length < dataHeaderSize) (hstream : s.stream = [])
    (hdeadline : deadline ≤ s.clock) :
    QuicAligned spec (t ++ [.event (s.client.report spec sendMonoNs measured none)]) { s with
      client := { s.client with pc := .head }
      got := [] } := by
  have hle := h.echoed_le
  rw [hpc] at hle
  have hecho := congrArg List.length (h.echo sendMonoNs (by rw [hpc]; rfl))
  rw [hstream, List.append_nil, List.length_append, DataHeader.length_encode] at hecho
  have heffect : WaitEffect (β := ℕ) spec s.clock s.client { s.client with pc := .head }
      [.event (s.client.report spec sendMonoNs measured none)] :=
    .report sendMonoNs measured deadline _ hpc
  refine ⟨h.seq_lt, hle, fun hmem => h.arrived_le (by simpa using hmem), nofun, fun _ => rfl,
    fun seq hmem => h.decoded seq (by simpa using hmem), h.timed.report hpc fun _ => hdeadline,
    h.real.step h.timed heffect fun e he _ echoed time harr hreadable => ?_⟩
  obtain rfl : e = s.client.report spec sendMonoNs measured none := by simpa using he
  have harrived := h.arrived_le harr
  have hreadable : dataHeaderSize * s.client.seq ≤ echoed := hreadable
  have hle : s.echoed + s.owed.length ≤ dataHeaderSize * s.client.seq := hle
  omega

/-- Each step keeps the stream aligned, if packets are sent only when all is read. -/
theorem quicAligned_step (h : QuicAligned spec t s) {a : QuicAction} {s' : QuicState}
    {o : List QuicObs} (ha : readAll s a = true) (hstep : quicStep spec s a = some (s', o)) :
    QuicAligned spec (t ++ o) s' := by
  unfold quicStep at hstep
  cases a with
  | wait n =>
    obtain ⟨rfl, rfl⟩ := Prod.mk.inj (Option.some.inj hstep)
    rw [List.append_nil]
    exact ⟨h.seq_lt, h.echoed_le, h.arrived_le, h.echo, h.got_nil, h.decoded,
      h.timed.mono (Nat.le_add_right _ n), h.real⟩
  | tick =>
    dsimp only at hstep
    split at hstep
    · rename_i sendMonoNs hpc
      obtain ⟨rfl, rfl⟩ := Prod.mk.inj (Option.some.inj hstep)
      simp only [readAll, hpc, Bool.and_eq_true, List.isEmpty_iff] at ha
      exact h.sent hpc ha.1 ha.2
    · rw [Option.map_eq_some_iff] at hstep
      obtain ⟨client, htick, hstep⟩ := hstep
      obtain ⟨rfl, rfl⟩ := Prod.mk.inj hstep
      exact h.ticked htick
  | sendFails =>
    dsimp only at hstep
    split at hstep
    · rename_i sendMonoNs hpc
      obtain ⟨rfl, rfl⟩ := Prod.mk.inj (Option.some.inj hstep)
      rw [List.append_nil]
      exact ⟨h.seq_lt, (Nat.le_add_right _ _).trans h.echoed_le, h.arrived_le, nofun,
        fun _ => h.got_nil (by simp [hpc]), h.decoded, h.timed.idle rfl rfl, h.real⟩
    · cases hstep
  | arrive n =>
    dsimp only at hstep
    split_ifs at hstep with hn
    obtain ⟨rfl, rfl⟩ := Prod.mk.inj (Option.some.inj hstep)
    exact h.arrive hn
  | read n =>
    dsimp only at hstep
    split at hstep
    · rename_i sendMonoNs measured deadline hpc
      split_ifs at hstep
      obtain ⟨rfl, rfl⟩ := Prod.mk.inj (Option.some.inj hstep)
      rw [List.append_nil]
      refine ⟨h.seq_lt, h.echoed_le, h.arrived_le, fun m hm => ?_, fun hne => ?_, h.decoded,
        h.timed, h.real⟩
      · rw [← h.echo m hm]
        simp
      · exact absurd hpc (hne _ _ _)
    · cases hstep
  | readDone =>
    dsimp only at hstep
    split at hstep
    · rename_i sendMonoNs measured deadline hpc
      split_ifs at hstep with hlen
      obtain ⟨rfl, rfl⟩ := Prod.mk.inj (Option.some.inj hstep)
      exact h.readDone hpc hlen
    · cases hstep
  | readFails => cases ha
  | elapsed =>
    dsimp only at hstep
    split at hstep
    · rename_i sendMonoNs measured deadline hpc
      split_ifs at hstep with hready
      obtain ⟨rfl, rfl⟩ := Prod.mk.inj (Option.some.inj hstep)
      exact h.elapsed hpc hready.1 hready.2.1 hready.2.2
    · cases hstep

end Steps

/-- In every run in which no read fails, and each packet is sent only when all earlier echoes have
been read to their last byte, the client decodes each header, and reports a packet as lost only if
not all bytes of its echo became readable before the timeout, counted from its send, was over. -/
theorem quicCorrect_of_readAll {spec : StreamRunSpec} {start : ℕ} {t : List QuicObs}
    {s : QuicState}
    (h : (quicSystem spec start).ReachWhile (fun s a => readAll s a = true) t s) :
    QuicCorrect spec t := by
  have haligned : QuicAligned spec t s :=
    h.invariant (quicAligned_init spec start) fun h ha hstep => quicAligned_step h ha hstep
  exact ⟨haligned.decoded, haligned.real⟩

/-! ## Runs -/

/-- A stream with a timeout of five nanoseconds. -/
def quicSpec : StreamRunSpec :=
  ⟨7, 0, .quic, 100, 0, 0, none, none, 5⟩

/-- Half of the first echo is read before its timeout, the rest and the second echo come at
once. -/
def splitEcho : List QuicAction :=
  [.replicate 7 .tick, [.arrive 20, .read 20, .wait 5, .elapsed], .replicate 6 .tick,
    [.arrive 60, .read 40, .readDone]].flatten

theorem splitEcho_exec : ((quicSystem quicSpec 0).exec (quicSystem quicSpec 0).init splitEcho).map
    Prod.snd = some [.sent 1 0, .arrived 20 0, .event ⟨0, 1, 0, 0, none, true⟩, .sent 2 5,
      .arrived 80 5, .decodeFailed 2] := by
  decide +kernel

/-- After an echo that a timeout has split, the next header is not decoded. -/
theorem not_quicCorrect_split_echo :
    ¬∀ t s, (quicSystem quicSpec 0).Reach t s → QuicCorrect quicSpec t := by
  intro h
  obtain ⟨⟨s, t⟩, hexec, rfl⟩ := Option.map_eq_some_iff.mp splitEcho_exec
  exact (h _ s (Machine.reach_exec hexec)).1 2 (by simp)

/-- The first packet is echoed in two chunks, the echo of the second one comes too late. -/
def lateLast : List QuicAction :=
  [.replicate 7 .tick, [.arrive 20, .read 20, .wait 1, .arrive 20, .read 20, .readDone],
    .replicate 6 .tick, [.wait 5, .elapsed, .arrive 40]].flatten

theorem lateLast_exec : ((quicSystem quicSpec 0).execWhile (fun s a => readAll s a = true)
    (quicSystem quicSpec 0).init lateLast).map Prod.snd = some [.sent 1 0, .arrived 20 0,
      .arrived 40 1, .event ⟨0, 1, 0, 0, some 1, true⟩, .sent 2 1,
      .event ⟨0, 2, 0, 1, none, true⟩, .arrived 80 6] := by
  decide +kernel

theorem quicCorrect_of_readAll_lateLast : ∃ t s,
    (quicSystem quicSpec 0).ReachWhile (fun s a => readAll s a = true) t s ∧
      .event ⟨0, 2, 0, 1, none, true⟩ ∈ t ∧ QuicCorrect quicSpec t := by
  obtain ⟨⟨s, t⟩, hexec, rfl⟩ := Option.map_eq_some_iff.mp lateLast_exec
  have hreach := Machine.ReachWhile.start.execWhile hexec
  exact ⟨_, s, hreach, by simp, quicCorrect_of_readAll hreach⟩

end Ipfusch
