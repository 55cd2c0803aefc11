import Ipfusch.Benchmark
import Ipfusch.Pacer
import Ipfusch.QuicStream
import Ipfusch.TcpStream
import Ipfusch.UdpStream

/-!
# The offered load

The loops of all three clients pace their packets in the same way. A packet is sent after
`next_send` at the earliest, which then moves on by the delay of `pacing_delay`, even if the
loop is behind. So each loop runs a pacer (`OnPace`), whatever holds it up between two packets.
`tcpLoop` is `tcpStream` under a clock that does not go back (`tcpLoop_reach`), and `sleep_until`
does not return early.

`offeredLoad_le` : the streams of a run send, within any time from their starts, at most what
the configured rate allows, one packet for each stream, and what the delay loses by its
rounding to nanoseconds.
-/

namespace Ipfusch

/-! ## The pace of a loop -/

/-- A loop whose `next_send` is the deadline of a pacer. `sleep` is the delay of a loop that
sleeps until then. -/
structure OnPace (delay first clock : ℕ) (times : List ℕ) (nextSend : ℕ) (released : Bool)
    (sleep : Option ℕ) : Prop where
  reach : (Pacer.machine delay first).Reach times ⟨clock, nextSend, released⟩
  sleep : ∀ d ∈ sleep, d = delay

namespace OnPace

variable {delay first clock nextSend : ℕ} {times : List ℕ} {released : Bool} {sleep : Option ℕ}

theorem start (delay first : ℕ) : OnPace delay first first [] first false none :=
  ⟨.start, nofun⟩

theorem wait (h : OnPace delay first clock times nextSend released sleep) {now : ℕ}
    (hle : clock ≤ now) : OnPace delay first now times nextSend released sleep :=
  ⟨Pacer.reach_wait h.reach hle, h.sleep⟩

theorem release (h : OnPace delay first clock times nextSend false sleep)
    (hdue : nextSend ≤ clock) : OnPace delay first clock times (nextSend + delay) true none :=
  ⟨Pacer.reach_release h.reach rfl hdue, nofun⟩

theorem write (h : OnPace delay first clock times nextSend true sleep) :
    OnPace delay first clock (times ++ [clock]) nextSend false none :=
  ⟨Pacer.reach_write h.reach rfl, nofun⟩

theorem skip (h : OnPace delay first clock times nextSend released sleep) :
    OnPace delay first clock times nextSend false none :=
  ⟨Pacer.reach_skip h.reach, nofun⟩

theorem toSleep (h : OnPace delay first clock times nextSend released sleep) :
    OnPace delay first clock times nextSend false (some delay) :=
  ⟨h.skip.reach, fun _ hd => (Option.some.inj hd).symm⟩

end OnPace

section Loops

variable {spec : StreamRunSpec} {start delay first clock : ℕ} {times : List ℕ}

/-! ## Stop and wait -/

/-- The packet is due. -/
def WaitPc.released : WaitPc → Bool
  | .stamp | .send _ => true
  | _ => false

/-- The delay of a loop that sleeps. -/
def WaitPc.sleep? : WaitPc → Option ℕ
  | .paceSleep delay => some delay
  | _ => none

/-- The loop was entered and is on pace. -/
structure WaitState.OnPace (delay first clock : ℕ) (times : List ℕ) (w : WaitState) : Prop
    extends Ipfusch.OnPace delay first clock times w.nextSend w.pc.released w.pc.sleep? where
  begun : w.pc ≠ .begin

/-- The times at which packets were sent. -/
def sentTimes {β : Type} (t : List (WaitObs β)) : List ℕ :=
  t.filterMap fun
    | .sent _ time => some time
    | _ => none

theorem sentTimes_append {β : Type} (t t' : List (WaitObs β)) :
    sentTimes (t ++ t') = sentTimes t ++ sentTimes t' :=
  List.filterMap_append

namespace WaitState

variable {w w' : WaitState}

/-- No packet is due any more. -/
theorem OnPace.idle (h : w.OnPace delay first clock times) (hnext : w'.nextSend = w.nextSend)
    (hpc : w'.pc = .head ∨ w'.pc = .failed) : w'.OnPace delay first clock times := by
  have hskip := h.skip
  rw [← hnext] at hskip
  rcases hpc with hpc | hpc
  · exact ⟨by rw [hpc]; exact hskip, by rw [hpc]; nofun⟩
  · exact ⟨by rw [hpc]; exact hskip, by rw [hpc]; nofun⟩

theorem OnPace.quiet {β : Type} {o : List (WaitObs β)} (h : w.OnPace delay first clock times)
    (hnext : w'.nextSend = w.nextSend) (hpc : w'.pc = .head ∨ w'.pc = .failed)
    (ho : sentTimes o = []) : w'.OnPace delay first clock (times ++ sentTimes o) := by
  rw [ho, List.append_nil]
  exact h.idle hnext hpc

theorem OnPace.sent (h : w.OnPace delay first clock times) {sendMonoNs : ℕ}
    (hpc : w.pc = .send sendMonoNs) :
    OnPace delay first clock (times ++ [clock]) { w with pc := .measure sendMonoNs } := by
  have hdue := h.toOnPace
  rw [hpc] at hdue
  exact ⟨hdue.write, nofun⟩

/-- Each step of the loop keeps the pace. -/
theorem OnPace.tick (h : w.OnPace delay first clock times)
    (hdelay : pacingDelay spec.payloadBytes spec.rateBps = some delay)
    (htick : waitTick spec w clock = some w') : w'.OnPace delay first clock times := by
  have hpace := h.toOnPace
  unfold waitTick at htick
  dsimp only at htick
  cases hpc : w.pc with
  | begin => exact absurd hpc h.begun
  | head =>
    simp only [hpc] at htick
    split_ifs at htick <;> obtain rfl := Option.some.inj htick <;> exact ⟨hpace.skip, nofun⟩
  | pace =>
    rw [hpc] at hpace
    simp only [hpc, hdelay] at htick
    split_ifs at htick with hlt
    · obtain rfl := Option.some.inj htick
      exact ⟨hpace.toSleep, nofun⟩
    · obtain rfl := Option.some.inj htick
      exact ⟨hpace.release (not_lt.mp hlt), nofun⟩
  | paceSleep d =>
    rw [hpc] at hpace
    obtain rfl : d = delay := hpace.sleep d rfl
    simp only [hpc] at htick
    split_ifs at htick with hdue
    obtain rfl := Option.some.inj htick
    exact ⟨hpace.release hdue, nofun⟩
  | stamp =>
    rw [hpc] at hpace
    simp only [hpc] at htick
    split_ifs at htick
    · obtain rfl := Option.some.inj htick
      exact ⟨⟨hpace.reach, nofun⟩, nofun⟩
    · obtain rfl := Option.some.inj htick
      exact ⟨hpace.skip, nofun⟩
  | measure sendMonoNs | arm sendMonoNs measured =>
    simp only [hpc] at htick
    obtain rfl := Option.some.inj htick
    exact ⟨hpace.skip, nofun⟩
  | send _ | recv _ _ _ | done | failed | panicked =>
    simp only [hpc, reduceCtorEq] at htick

end WaitState

/-- A header ends the wait for an echo, and nothing is sent. -/
theorem onHeader_idle {β : Type} (spec : StreamRunSpec) (w : WaitState) (sendMonoNs : ℕ)
    (measured : Bool) (ack : List UInt8) (now : ℕ) :
    (onHeader (β := β) spec w sendMonoNs measured ack now).1.nextSend = w.nextSend ∧
      ((onHeader (β := β) spec w sendMonoNs measured ack now).1.pc = .head ∨
        (onHeader (β := β) spec w sendMonoNs measured ack now).1.pc = .failed) ∧
      sentTimes (onHeader (β := β) spec w sendMonoNs measured ack now).2 = [] := by
  unfold onHeader
  cases DataHeader.decode ack with
  | error e => exact ⟨rfl, .inr rfl, rfl⟩
  | ok header => exact ⟨rfl, .inl rfl, rfl⟩

/-- A datagram ends it, too. -/
theorem onEcho_idle (spec : StreamRunSpec) (w : WaitState) (sendMonoNs : ℕ) (measured : Bool)
    (frame : List UInt8) (now : ℕ) :
    (onEcho spec w sendMonoNs measured frame now).1.nextSend = w.nextSend ∧
      ((onEcho spec w sendMonoNs measured frame now).1.pc = .head ∨
        (onEcho spec w sendMonoNs measured frame now).1.pc = .failed) ∧
      sentTimes (onEcho spec w sendMonoNs measured frame now).2 = [] := by
  unfold onEcho
  dsimp only
  split_ifs
  · exact onHeader_idle spec w sendMonoNs measured _ now
  · exact ⟨rfl, .inl rfl, rfl⟩

/-! ## UDP -/

section Udp

variable (sha256 : List UInt8 → Digest)

/-- `run_stream_udp` from the start of its loop. -/
def udpLoop (spec : StreamRunSpec) (start nextSend : ℕ) :
    Machine UdpStreamState UdpStreamAction UdpObs :=
  { udpStream sha256 spec with init := ⟨nextSend, .data ⟨start, .head, 0, nextSend⟩, []⟩ }

theorem onPace_loop (hdelay : pacingDelay spec.payloadBytes spec.rateBps = some delay) :
    LoopInvariant spec fun clock t w => w.OnPace delay first clock (sentTimes t) where
  wait h hle := ⟨h.toOnPace.wait hle, h.begun⟩
  tick h htick := h.tick hdelay htick
  sent h hpc := by
    rw [sentTimes_append]
    exact h.sent hpc
  sendFails h _ := h.idle rfl (.inr rfl)
  lost h _ := by
    rw [sentTimes_append]
    exact h.quiet rfl (.inl rfl) rfl
  took {clock t w sendMonoNs measured deadline} frame h _ := by
    obtain ⟨hnext, hpc, hquiet⟩ := onEcho_idle spec w sendMonoNs measured frame clock
    rw [sentTimes_append]
    exact h.quiet hnext hpc hquiet

theorem udpLoop_paced (hdelay : pacingDelay spec.payloadBytes spec.rateBps = some delay)
    {t : List UdpObs} {s : UdpStreamState} (hr : (udpLoop sha256 spec start first).Reach t s) :
    Paced delay first (sentTimes t) := by
  have hloop : ∃ w, s.client = .data w ∧ w.OnPace delay first s.clock (sentTimes t) := by
    refine hr.invariant (I := fun t s => ∃ w, s.client = .data w ∧
      w.OnPace delay first s.clock (sentTimes t))
      ⟨_, rfl, OnPace.start delay first, nofun⟩ fun _ ⟨w, hclient, hw⟩ hs => ?_
    exact (onPace_loop hdelay).step sha256 hs hclient hw
  obtain ⟨w, -, hw⟩ := hloop
  exact Pacer.paced hw.reach

end Udp

/-! ## QUIC -/

/-- `run_stream_quic` from the start of its loop. -/
def quicLoop (spec : StreamRunSpec) (start nextSend : ℕ) :
    Machine QuicStreamState QuicStreamAction QuicStreamObs :=
  { quicStream spec start with init := ⟨nextSend, ⟨start, .head, 0, nextSend⟩⟩ }

theorem quicStreamStep_onPace (hdelay : pacingDelay spec.payloadBytes spec.rateBps = some delay)
    {s s' : QuicStreamState} {a : QuicStreamAction} {o : List QuicStreamObs}
    (h : s.client.OnPace delay first s.clock times)
    (hs : quicStreamStep spec s a = some (s', o)) :
    s'.client.OnPace delay first s'.clock (times ++ sentTimes o) := by
  unfold quicStreamStep at hs
  cases a with
  | wait n =>
    obtain ⟨rfl, rfl⟩ := Prod.mk.inj (Option.some.inj hs)
    rw [show sentTimes [] = [] from rfl, List.append_nil]
    exact ⟨h.toOnPace.wait (Nat.le_add_right _ _), h.begun⟩
  | tick =>
    dsimp only at hs
    split at hs
    · rename_i sendMonoNs hpc
      obtain ⟨rfl, rfl⟩ := Prod.mk.inj (Option.some.inj hs)
      exact h.sent hpc
    · rw [Option.map_eq_some_iff] at hs
      obtain ⟨client, htick, hs⟩ := hs
      obtain ⟨rfl, rfl⟩ := Prod.mk.inj hs
      rw [show sentTimes [] = [] from rfl, List.append_nil]
      exact h.tick hdelay htick
  | sendFails =>
    dsimp only at hs
    split at hs
    · obtain ⟨rfl, rfl⟩ := Prod.mk.inj (Option.some.inj hs)
      rw [show sentTimes [] = [] from rfl, List.append_nil]
      exact h.idle rfl (.inr rfl)
    · cases hs
  | readDone ack =>
    dsimp only at hs
    split at hs
    · rename_i sendMonoNs measured deadline _
      split_ifs at hs
      obtain ⟨rfl, rfl⟩ := Prod.mk.inj (Option.some.inj hs)
      obtain ⟨hnext, hpc, hquiet⟩ :=
        onHeader_idle (β := List UInt8) spec s.client sendMonoNs measured ack s.clock
      exact h.quiet hnext hpc hquiet
    · cases hs
  | readFails =>
    dsimp only at hs
    split at hs
    · obtain ⟨rfl, rfl⟩ := Prod.mk.inj (Option.some.inj hs)
      exact h.quiet rfl (.inl rfl) rfl
    · cases hs
  | elapsed =>
    dsimp only at hs
    split at hs
    · split_ifs at hs
      obtain ⟨rfl, rfl⟩ := Prod.mk.inj (Option.some.inj hs)
      exact h.quiet rfl (.inl rfl) rfl
    · cases hs

theorem quicLoop_paced (hdelay : pacingDelay spec.payloadBytes spec.rateBps = some delay)
    {t : List QuicStreamObs} {s : QuicStreamState} (hr : (quicLoop spec start first).Reach t s) :
    Paced delay first (sentTimes t) := by
  have hloop : s.client.OnPace delay first s.clock (sentTimes t) := by
    refine hr.invariant (I := fun t s => s.client.OnPace delay first s.clock (sentTimes t))
      ⟨OnPace.start delay first, nofun⟩ fun _ h hs => ?_
    rw [sentTimes_append]
    exact quicStreamStep_onPace hdelay h hs
  exact Pacer.paced hloop.reach

/-! ## TCP -/

/-- The packet is due. -/
def Pc.released : Pc → Bool
  | .stamp => true
  | _ => false

/-- The delay of a loop that sleeps. -/
def Pc.sleep? : Pc → Option ℕ
  | .paceSleep delay => some delay
  | _ => none

/-- The client and its clock. -/
structure TimedTcp where
  clock : ℕ
  tcp : TcpState

/-- One step, under a clock that does not go back. -/
def timedTcpStep (spec : StreamRunSpec) (start : ℕ) (s : TimedTcp) :
    TcpAction → Option (TimedTcp × List TcpObs)
  | .tick now =>
    if s.clock ≤ now then
      (tcpTick spec start s.tcp now).map fun r => (⟨now, r.1⟩, r.2)
    else none
  | a => (tcpStep spec start s.tcp a).map fun r => ({ s with tcp := r.1 }, r.2)

/-- `run_stream_tcp` from the start of its loop. -/
def tcpLoop (spec : StreamRunSpec) (start nextSend : ℕ) : Machine TimedTcp TcpAction TcpObs where
  init := ⟨nextSend, (tcpStream spec start nextSend).init⟩
  step := timedTcpStep spec start

/-- The loop is on pace. -/
abbrev TcpState.OnPace (delay first clock : ℕ) (times : List ℕ) (s : TcpState) : Prop :=
  Ipfusch.OnPace delay first clock times s.nextSend s.pc.released s.pc.sleep?

section Tcp

variable {s s' : TcpState} {o : List TcpObs}

/-- No packet is due any more. -/
theorem TcpState.OnPace.quiet (h : s.OnPace delay first clock times)
    (hnext : s'.nextSend = s.nextSend) (hreleased : s'.pc.released = false)
    (hsleep : s'.pc.sleep? = none) (ho : written o = []) :
    s'.OnPace delay first clock (times ++ (written o).map Prod.snd) := by
  rw [ho, List.map_nil, List.append_nil, TcpState.OnPace, hnext, hreleased, hsleep]
  exact h.skip

theorem TcpState.OnPace.silent (h : s.OnPace delay first clock times) :
    s.OnPace delay first clock (times ++ (written []).map Prod.snd) := by
  rwa [show (written []).map Prod.snd = [] from rfl, List.append_nil]

theorem takeAck_quiet (h : takeAck spec s = some (s', o)) :
    s'.nextSend = s.nextSend ∧ s'.pc = s.pc ∧ written o = [] := by
  obtain ⟨_, _, _, -, ⟨_, -, rfl, rfl⟩ | ⟨-, rfl, rfl⟩⟩ := takeAck_cases h <;> exact ⟨rfl, rfl, rfl⟩

/-- Each step of the loop keeps the pace. -/
theorem TcpState.OnPace.tick (h : s.OnPace delay first clock times)
    (hdelay : pacingDelay spec.payloadBytes spec.rateBps = some delay)
    (htick : tcpTick spec start s clock = some (s', o)) :
    s'.OnPace delay first clock (times ++ (written o).map Prod.snd) := by
  unfold tcpTick at htick
  dsimp only at htick
  cases hpc : s.pc with
  | head | checkEnd | drain | window | flush =>
    simp only [hpc] at htick
    split_ifs at htick <;> obtain ⟨rfl, rfl⟩ := Prod.mk.inj (Option.some.inj htick) <;>
      exact h.quiet rfl rfl rfl rfl
  | sleep | write sendMonoNs | insert sendMonoNs =>
    simp only [hpc] at htick
    obtain ⟨rfl, rfl⟩ := Prod.mk.inj (Option.some.inj htick)
    exact h.quiet rfl rfl rfl rfl
  | acks =>
    simp only [hpc] at htick
    cases htake : takeAck spec s with
    | some r =>
      simp only [htake, Option.some.injEq] at htick
      subst htick
      obtain ⟨hnext, hpc', hquiet⟩ := takeAck_quiet htake
      rw [hpc] at hpc'
      exact h.quiet hnext (by rw [hpc']; rfl) (by rw [hpc']; rfl) hquiet
    | none =>
      simp only [htake] at htick
      obtain ⟨rfl, rfl⟩ := Prod.mk.inj (Option.some.inj htick)
      exact h.quiet rfl rfl rfl rfl
  | recv =>
    simp only [hpc, Option.map_eq_some_iff] at htick
    obtain ⟨⟨s₁, o₁⟩, htake, htick⟩ := htick
    obtain ⟨rfl, rfl⟩ := Prod.mk.inj htick
    obtain ⟨hnext, -, hquiet⟩ := takeAck_quiet htake
    exact h.quiet hnext rfl rfl hquiet
  | pace =>
    rw [TcpState.OnPace, hpc] at h
    simp only [hpc, hdelay] at htick
    split_ifs at htick with hlt
    · obtain ⟨rfl, rfl⟩ := Prod.mk.inj (Option.some.inj htick)
      exact TcpState.OnPace.silent h.toSleep
    · obtain ⟨rfl, rfl⟩ := Prod.mk.inj (Option.some.inj htick)
      exact TcpState.OnPace.silent (h.release (not_lt.mp hlt))
  | paceSleep d =>
    rw [TcpState.OnPace, hpc] at h
    obtain rfl : d = delay := h.sleep d rfl
    simp only [hpc] at htick
    split_ifs at htick with hdue
    obtain ⟨rfl, rfl⟩ := Prod.mk.inj (Option.some.inj htick)
    exact TcpState.OnPace.silent (h.release hdue)
  | stamp =>
    rw [TcpState.OnPace, hpc] at h
    simp only [hpc] at htick
    split_ifs at htick
    · obtain ⟨rfl, rfl⟩ := Prod.mk.inj (Option.some.inj htick)
      exact h.write
    · obtain ⟨rfl, rfl⟩ := Prod.mk.inj (Option.some.inj htick)
      exact TcpState.OnPace.silent h.skip
  | done | failed _ | panicked =>
    simp only [hpc, reduceCtorEq] at htick

/-- A step with a clock is a step. -/
theorem timedTcpStep_tcp {s s' : TimedTcp} {a : TcpAction}
    (hs : timedTcpStep spec start s a = some (s', o)) :
    tcpStep spec start s.tcp a = some (s'.tcp, o) := by
  unfold timedTcpStep at hs
  cases a with
  | tick now =>
    dsimp only at hs
    split_ifs at hs
    obtain ⟨r, htick, hs⟩ := Option.map_eq_some_iff.mp hs
    obtain ⟨rfl, rfl⟩ := Prod.mk.inj hs
    exact htick
  | elapsed | writeFails | flush _ | deliver _ _ =>
    obtain ⟨r, hstep, hs⟩ := Option.map_eq_some_iff.mp hs
    obtain ⟨rfl, rfl⟩ := Prod.mk.inj hs
    exact hstep

theorem timedTcpStep_onPace (hdelay : pacingDelay spec.payloadBytes spec.rateBps = some delay)
    {s s' : TimedTcp} {a : TcpAction} {o : List TcpObs} (h : s.tcp.OnPace delay first s.clock times)
    (hs : timedTcpStep spec start s a = some (s', o)) :
    s'.tcp.OnPace delay first s'.clock (times ++ (written o).map Prod.snd) := by
  unfold timedTcpStep at hs
  cases a with
  | tick now =>
    dsimp only at hs
    split_ifs at hs with hclock
    rw [Option.map_eq_some_iff] at hs
    obtain ⟨r, htick, hs⟩ := hs
    obtain ⟨rfl, rfl⟩ := Prod.mk.inj hs
    exact TcpState.OnPace.tick (h.wait hclock) hdelay htick
  | deliver seq recvMonoNs =>
    obtain ⟨rfl, rfl⟩ := Prod.mk.inj (Option.some.inj hs)
    exact TcpState.OnPace.silent h
  | elapsed =>
    obtain ⟨r, hstep, hs⟩ := Option.map_eq_some_iff.mp hs
    obtain ⟨rfl, rfl⟩ := Prod.mk.inj hs
    unfold tcpStep at hstep
    dsimp only at hstep
    split_ifs at hstep
    obtain rfl := Option.some.inj hstep
    exact h.quiet rfl rfl rfl rfl
  | writeFails =>
    obtain ⟨r, hstep, hs⟩ := Option.map_eq_some_iff.mp hs
    obtain ⟨rfl, rfl⟩ := Prod.mk.inj hs
    unfold tcpStep at hstep
    dsimp only at hstep
    split at hstep
    · obtain rfl := Option.some.inj hstep
      exact h.quiet rfl rfl rfl rfl
    · cases hstep
  | flush seq =>
    obtain ⟨r, hstep, hs⟩ := Option.map_eq_some_iff.mp hs
    obtain ⟨rfl, rfl⟩ := Prod.mk.inj hs
    unfold tcpStep at hstep
    dsimp only at hstep
    split at hstep
    · rename_i hpc _
      obtain rfl := Option.some.inj hstep
      exact h.quiet rfl (by rw [hpc]; rfl) (by rw [hpc]; rfl) rfl
    · cases hstep

/-- A run with a clock is a run. -/
theorem tcpLoop_reach {t : List TcpObs} {s : TimedTcp} (hr : (tcpLoop spec start first).Reach t s) :
    (tcpStream spec start first).Reach t s.tcp := by
  refine hr.invariant (I := fun t s => (tcpStream spec start first).Reach t s.tcp) .start
    fun {t s a s' o} _ hreach hs => ?_
  have hstep : (tcpStream spec start first).step s.tcp a = some (s'.tcp, o) := timedTcpStep_tcp hs
  exact hreach.step hstep

theorem tcpLoop_paced (hdelay : pacingDelay spec.payloadBytes spec.rateBps = some delay)
    {t : List TcpObs} {s : TimedTcp} (hr : (tcpLoop spec start first).Reach t s) :
    Paced delay first ((written t).map Prod.snd) := by
  have hloop : s.tcp.OnPace delay first s.clock ((written t).map Prod.snd) := by
    refine hr.invariant
      (I := fun t s => s.tcp.OnPace delay first s.clock ((written t).map Prod.snd))
      (OnPace.start delay first) fun _ h hs => ?_
    rw [written_append, List.map_append]
    exact timedTcpStep_onPace hdelay h hs
  exact Pacer.paced hloop.reach

end Tcp

end Loops

/-! ## The load of a run -/

/-- When the packets of a stream were sent, for a loop entered at `start` with its first
`next_send`. A TCP packet counts from its time stamp, which comes before its write. -/
structure StreamSends where
  start : ℕ
  first : ℕ
  times : List ℕ

namespace StreamSends

/-- The payload bits that were sent within a time from the first `next_send`. -/
def bitsWithin (sends : StreamSends) (payloadBytes : UInt64) (span : ℚ) : ℚ :=
  8 * payloadBytes.toNat * (sends.times.countP fun time : ℕ => (time : ℚ) ≤ sends.first + span)

variable (sha256 : List UInt8 → Digest)

/-- A run of the stream's loop sends these packets. -/
inductive Of (spec : StreamRunSpec) : StreamSends → Prop
  | tcp {start first : ℕ} {t : List TcpObs} {s : TimedTcp} (htransport : spec.transport = .tcp)
      (hr : (tcpLoop spec start first).Reach t s) : Of spec ⟨start, first, (written t).map Prod.snd⟩
  | udp {start first : ℕ} {t : List UdpObs} {s : UdpStreamState}
      (htransport : spec.transport = .udp) (hr : (udpLoop sha256 spec start first).Reach t s) :
      Of spec ⟨start, first, sentTimes t⟩
  | quic {start first : ℕ} {t : List QuicStreamObs} {s : QuicStreamState}
      (htransport : spec.transport = .quic) (hr : (quicLoop spec start first).Reach t s) :
      Of spec ⟨start, first, sentTimes t⟩

variable {sha256} {spec : StreamRunSpec} {sends : StreamSends} {delay : ℕ}

theorem Of.paced (h : Of sha256 spec sends)
    (hdelay : pacingDelay spec.payloadBytes spec.rateBps = some delay) :
    Paced delay sends.first sends.times := by
  cases h with
  | tcp _ hr => exact tcpLoop_paced hdelay hr
  | udp _ hr => exact udpLoop_paced sha256 hdelay hr
  | quic _ hr => exact quicLoop_paced hdelay hr

end StreamSends

/-- The delay of a packet, if it fits, is too short by less than a nanosecond. -/
theorem pacingDelay_bounds {payloadBytes bps : UInt64} {delay : ℕ}
    (hdelay : pacingDelay payloadBytes (some bps) = some delay)
    (hfit : payloadBytes.toNat * 8 * 1000000000 / bps.toNat < 2 ^ 64) :
    0 < delay ∧ payloadBytes.toNat * 8 * 1000000000 < bps.toNat * (delay + 1) := by
  unfold pacingDelay at hdelay
  rw [Option.bind_some] at hdelay
  split_ifs at hdelay with hzero
  have hpos : 0 < bps.toNat := Nat.pos_of_ne_zero fun h => hzero (UInt64.toNat_inj.mp h)
  have hlt := Nat.lt_mul_div_succ (payloadBytes.toNat * 8 * 1000000000) hpos
  have hle : payloadBytes.toNat * 8 * 1000000000 / bps.toNat ≤ delay := by
    have heq := Option.some.inj hdelay
    omega
  refine ⟨?_, hlt.trans_le (Nat.mul_le_mul_left _ (Nat.succ_le_succ hle))⟩
  have heq := Option.some.inj hdelay
  omega

theorem toNat_max (a b : UInt64) : (max a b).toNat = max a.toNat b.toNat := by
  rw [show max a b = if a ≤ b then b else a from rfl]
  split_ifs with hle
  · exact (max_eq_right (UInt64.le_iff_toNat_le.mp hle)).symm
  · exact (max_eq_left (not_le.mp (hle ∘ UInt64.le_iff_toNat_le.mpr)).le).symm

/-- The rate of a stream, and of all of them together. -/
theorem perStreamRate_bounds (v : UInt64) (streams : UInt16) :
    (max (v / streams.toUInt64) 1).toNat = max 1 (v.toNat / streams.toNat) ∧
      streams.toNat * (max (v / streams.toUInt64) 1).toNat ≤ max v.toNat streams.toNat := by
  have hrate : (max (v / streams.toUInt64) 1).toNat = max 1 (v.toNat / streams.toNat) := by
    have hdiv : (v / streams.toUInt64).toNat = v.toNat / streams.toNat := by
      rw [UInt64.toNat_div, UInt16.toNat_toUInt64]
    rw [toNat_max, hdiv, max_comm]
    rfl
  refine ⟨hrate, ?_⟩
  rw [hrate, ← Nat.mul_max_mul_left, Nat.mul_one]
  exact max_le (le_max_right _ _) ((Nat.mul_div_le _ _).trans (le_max_left _ _))

/-- The bits of a stream within a time. -/
theorem StreamSends.bitsWithin_le {sends : StreamSends} {delay rate : ℕ} {payloadBytes : UInt64}
    (h : Paced delay sends.first sends.times) (hpos : 0 < delay)
    (hrate : payloadBytes.toNat * 8 * 1000000000 < rate * (delay + 1)) {span : ℚ}
    (hspan : 0 ≤ span) : sends.bitsWithin payloadBytes span ≤
      8 * payloadBytes.toNat + (1 + 1 / delay) * rate * span / 10 ^ 9 := by
  have hcount := h.countP_le_rat hpos hspan
  have hdelay : (0 : ℚ) < delay := Nat.cast_pos.mpr hpos
  have hbits : (8 * payloadBytes.toNat : ℚ) ≤ rate * (delay + 1) / 10 ^ 9 := by
    rw [le_div_iff₀ (by positivity)]
    have hcast : ((payloadBytes.toNat * 8 * 1000000000 : ℕ) : ℚ) ≤ (rate * (delay + 1) : ℕ) :=
      Nat.cast_le.mpr hrate.le
    push_cast at hcast
    linarith
  calc sends.bitsWithin payloadBytes span
      ≤ 8 * payloadBytes.toNat * (span / delay + 1) :=
        mul_le_mul_of_nonneg_left hcount (by positivity)
    _ = 8 * payloadBytes.toNat + 8 * payloadBytes.toNat * (span / delay) := by ring
    _ ≤ 8 * payloadBytes.toNat + rate * (delay + 1) / 10 ^ 9 * (span / delay) := by gcongr
    _ = 8 * payloadBytes.toNat + (1 + 1 / delay) * rate * span / 10 ^ 9 := by
        field_simp

/-- Each stream of a run writes its `k`-th packet, from zero, no earlier than `k` delays after
its first `next_send`. All streams together send, within any time from there, at most a packet
for each stream and what the rate allows, but for the rounding of the delay. -/
theorem offeredLoad_le {sha256 : List UInt8 → Digest} {cfg : RunConfig} {v : UInt64} {delay : ℕ}
    {sessionId : UInt64} {sends : StreamRunSpec → StreamSends}
    (hv : (resolveRate cfg.rate cfg.transport).1 = some v)
    (hfit : cfg.payloadBytes.toNat * 8 * 1000000000 / max 1 (v.toNat / cfg.streams.toNat) < 2 ^ 64)
    (hdelay : pacingDelay cfg.payloadBytes (perStreamRate (some v) cfg.streams) = some delay)
    (hsends : ∀ spec ∈ cfg.streamSpecs sessionId, StreamSends.Of sha256 spec (sends spec)) :
    (∀ spec ∈ cfg.streamSpecs sessionId, Paced delay (sends spec).first (sends spec).times) ∧
      ∀ span : ℚ, 0 ≤ span →
        ((cfg.streamSpecs sessionId).map fun spec =>
            (sends spec).bitsWithin cfg.payloadBytes span).sum ≤
          cfg.streams.toNat * (8 * cfg.payloadBytes.toNat) +
            (1 + 1 / delay) * max v.toNat cfg.streams.toNat * span / 10 ^ 9 := by
  obtain ⟨hrate, hall⟩ := perStreamRate_bounds v cfg.streams
  rw [← hrate] at hfit
  obtain ⟨hpos, hbits⟩ := pacingDelay_bounds hdelay hfit
  have hpaced : ∀ spec ∈ cfg.streamSpecs sessionId,
      Paced delay (sends spec).first (sends spec).times := by
    intro spec hspec
    refine (hsends spec hspec).paced ?_
    obtain ⟨streamId, -, rfl⟩ := List.mem_map.mp hspec
    rw [← hdelay, hv]
  refine ⟨hpaced, fun span hspan => ?_⟩
  have hlength : (cfg.streamSpecs sessionId).length = cfg.streams.toNat := by
    rw [RunConfig.streamSpecs, List.length_map, List.length_range]
  have hsum : ((cfg.streamSpecs sessionId).map fun spec =>
      (sends spec).bitsWithin cfg.payloadBytes span).sum ≤
        cfg.streams.toNat • (8 * (cfg.payloadBytes.toNat : ℚ) +
          (1 + 1 / delay) * (max (v / cfg.streams.toUInt64) 1).toNat * span / 10 ^ 9) := by
    rw [← hlength, ← List.length_map]
    refine List.sum_le_card_nsmul _ _ fun bits hmem => ?_
    obtain ⟨spec, hspec, rfl⟩ := List.mem_map.mp hmem
    exact StreamSends.bitsWithin_le (hpaced spec hspec) hpos hbits hspan
  have hcast : (cfg.streams.toNat : ℚ) * (max (v / cfg.streams.toUInt64) 1).toNat ≤
      max v.toNat cfg.streams.toNat := by
    exact_mod_cast hall
  refine hsum.trans ?_
  calc cfg.streams.toNat • (8 * (cfg.payloadBytes.toNat : ℚ) +
        (1 + 1 / delay) * (max (v / cfg.streams.toUInt64) 1).toNat * span / 10 ^ 9)
      = cfg.streams.toNat * (8 * cfg.payloadBytes.toNat) + (1 + 1 / delay) *
          (cfg.streams.toNat * (max (v / cfg.streams.toUInt64) 1).toNat) * span / 10 ^ 9 := by
        rw [nsmul_eq_mul]
        ring
    _ ≤ cfg.streams.toNat * (8 * cfg.payloadBytes.toNat) +
          (1 + 1 / delay) * max v.toNat cfg.streams.toNat * span / 10 ^ 9 := by gcongr

/-- A packet at once, whose echo is not read, and one after the delay. -/
def twoPackets : List UdpStreamAction :=
  [.replicate 6 .tick, [.recvFails, .tick, .tick, .wait 300000000, .tick, .tick, .tick]].flatten

theorem twoPackets_exec : ∀ spec ∈ lostWarmup.streamSpecs 7,
    ((udpLoop noHash spec 0 0).exec (udpLoop noHash spec 0 0).init twoPackets).map
        (sentTimes ∘ Prod.snd) = some [0, 300000000] := by
  decide +kernel

theorem offeredLoad_le_twoPackets :
    (∀ spec ∈ lostWarmup.streamSpecs 7, Paced 300000000 0 [0, 300000000]) ∧
      ∀ span : ℚ, 0 ≤ span →
        ((lostWarmup.streamSpecs 7).map fun _ =>
            (⟨0, 0, [0, 300000000]⟩ : StreamSends).bitsWithin 1200 span).sum ≤
          lostWarmup.streams.toNat * (8 * (1200 : UInt64).toNat) +
            (1 + 1 / (300000000 : ℕ)) * max (64000 : UInt64).toNat lostWarmup.streams.toNat * span /
              10 ^ 9 := by
  have hof : ∀ spec ∈ lostWarmup.streamSpecs 7,
      StreamSends.Of noHash spec ⟨0, 0, [0, 300000000]⟩ := by
    intro spec hspec
    have htransport : spec.transport = .udp := by
      obtain ⟨streamId, -, rfl⟩ := List.mem_map.mp hspec
      rfl
    obtain ⟨⟨s, t⟩, hexec, htimes⟩ := Option.map_eq_some_iff.mp (twoPackets_exec spec hspec)
    rw [← show sentTimes t = [0, 300000000] from htimes]
    exact .udp htransport (Machine.reach_exec hexec)
  exact @offeredLoad_le noHash lostWarmup 64000 300000000 7 (fun _ => ⟨0, 0, [0, 300000000]⟩) rfl
    (by decide +kernel) (by decide +kernel) hof

end Ipfusch
