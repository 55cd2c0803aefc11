import Ipfusch.StreamReports
import Ipfusch.TcpSystem

/-!
# A run over TCP

`run_benchmark` with its TCP streams, each of which talks to the server's task for its
connection. A stream is set up, or fails to be, and then runs its loop, at whatever time.

`tcpRun_reports` : in every run that returns `Ok`, the report counts exactly the packets that the
streams wrote after their warm-ups, and acknowledges no more of a stream than the server has read
from it.
-/

namespace Ipfusch

/-! ## The streams -/

/-- How the client has ended. -/
def Pc.exit : Pc → Option StreamExit
  | .done => some .returned
  | .failed _ => some .failed
  | .panicked => some .panicked
  | _ => none

theorem Pc.exit_eq_returned {pc : Pc} (h : pc.exit = some .returned) : pc = .done := by
  cases pc <;> first | rfl | cases h

/-- The event that is sent. -/
def TcpSystemObs.event? (o : TcpSystemObs) : Option PacketEvent :=
  o.client?.bind TcpObs.event?

theorem filterMap_event? (t : List TcpSystemObs) :
    t.filterMap TcpSystemObs.event? = events (clientTrace t) := by
  rw [events, clientTrace, List.filterMap_filterMap]
  rfl

/-- The client that has ended takes no step, but acknowledgements can still come. -/
theorem tcpStep_exit {spec : StreamRunSpec} {start : ℕ} {s s' : TcpState} {a : TcpAction}
    {o : List TcpObs} (h : tcpStep spec start s a = some (s', o)) {e : StreamExit}
    (he : s.pc.exit = some e) : s'.pc = s.pc ∧ events o = [] := by
  cases a with
  | deliver seq recvMonoNs =>
    obtain ⟨rfl, rfl⟩ := Prod.mk.inj (Option.some.inj h)
    exact ⟨rfl, rfl⟩
  | tick now | elapsed | writeFails | flush seq =>
    unfold tcpStep at h
    try unfold tcpTick at h
    cases hpc : s.pc <;> simp_all [Pc.exit]

/-- The streams of a run over TCP, entered at some instants. -/
def tcpStreams (cfg : RunConfig) (sessionId : UInt64) (i : Fin cfg.streams.toNat) (p : ℕ × ℕ) :
    Machine TcpSystemState TcpSystemAction TcpSystemObs :=
  tcpSystem (cfg.streamSpec sessionId i) p.1 p.2

theorem tcp_endsQuietly (cfg : RunConfig) (sessionId : UInt64) :
    EndsQuietly (tcpStreams cfg sessionId) TcpSystemObs.event? fun s => s.client.pc.exit := by
  intro i p s a s' o hstep e he
  have hserver := clientTrace_append_server []
  simp only [List.nil_append] at hserver
  rw [filterMap_event?]
  cases tcpSystemStep_effect hstep with
  | client a c o _ hc =>
    obtain ⟨hpc, hevents⟩ := tcpStep_exit hc he
    have hclient := clientTrace_append_client [] o
    rw [List.nil_append] at hclient
    rw [hclient]
    refine ⟨?_, hevents⟩
    dsimp only
    rw [TcpSystemState.client_resume, hpc]
    exact he
  | serverRead _ _ _ o _ _ | server _ _ o _ _ => exact ⟨he, congrArg events (hserver o)⟩
  | send _ _ _ _ _ | readerRead _ _ _ | deliver _ _ _ | readerDone => exact ⟨he, rfl⟩

/-- The streams as tasks. -/
def tcpTasks (cfg : RunConfig) (sessionId : UInt64) :=
  stagedTasks (tcpStreams cfg sessionId) TcpSystemObs.event? (fun s => s.client.pc.exit)
    (tcp_endsQuietly cfg sessionId)

/-! ## What a stream sends -/

section Stream

variable {spec : StreamRunSpec} {start nextSend : ℕ} {t : List TcpSystemObs} {s : TcpSystemState}

/-- The events of a stream are marked with its number. -/
theorem streamId_events (h : (tcpSystem spec start nextSend).Reach t s) :
    ∀ e ∈ t.filterMap TcpSystemObs.event?, e.streamId = spec.streamId := by
  intro e he
  rw [filterMap_event?] at he
  obtain ⟨flushed, -, hevents⟩ := (accounted_reach (client_reach h)).reported
  rw [hevents, List.mem_append, List.mem_map, List.mem_map] at he
  rcases he with ⟨_, -, rfl⟩ | ⟨_, -, rfl⟩ <;> rfl

/-- The events of a stream that has returned : one for each packet it entered. -/
theorem events_done (h : (tcpSystem spec start nextSend).Reach t s)
    (hdone : s.client.pc = .done) : (events (clientTrace t)).Perm
      ((entered (clientTrace t)).map fun e =>
        packetEvent spec e.1 e.2 (firstAck e.1 (clientTrace t))) := by
  have hacc := accounted_reach (client_reach h)
  have hperm := hacc.events_perm
  rw [hacc.flushed_all hdone, List.map_nil, List.append_nil] at hperm
  exact hperm

/-- Each acknowledgement is that of a packet the server has read. -/
theorem length_acked_le (hfit : spec.payloadBytes.toNat < 2 ^ 32)
    (h : (tcpSystem spec start nextSend).Reach t s) :
    ((events (clientTrace t)).filterMap PacketEvent.ackedSeq).length ≤
      (served (serverTrace t)).length := by
  have hdelivered := (delivered_seqs hfit h).length_le
  rw [(accounted_reach (client_reach h)).ordered.channel_eq] at hdelivered
  rw [filterMap_ackedSeq, acked_events hfit h]
  simp only [List.length_map, List.length_append] at hdelivered ⊢
  omega

/-- The acknowledged packets are reported in order. -/
theorem pairwise_acked (hfit : spec.payloadBytes.toNat < 2 ^ 32)
    (h : (tcpSystem spec start nextSend).Reach t s) :
    ((events (clientTrace t)).filterMap PacketEvent.ackedSeq).Pairwise (· < ·) := by
  have hprefix := (delivered_seqs hfit h).trans (served_seqs hfit h)
  rw [(accounted_reach (client_reach h)).ordered.channel_eq, List.map_append] at hprefix
  rw [filterMap_ackedSeq, acked_events hfit h]
  exact List.Pairwise.sublist ((List.prefix_append _ _).trans hprefix).sublist
    List.pairwise_lt_range'

end Stream

/-! ## The report -/

/-- The measured packets of a stream that were written. -/
def measuredPackets (t : List TcpSystemObs) : List (ℕ × ℕ × Bool) :=
  (entered (clientTrace t)).filter fun e => e.2.2

/-- What the report says of a stream : its packets that were written after the warm-up, and those of
them whose acknowledgement was taken. -/
structure TcpReported (spec : StreamRunSpec) (t : List TcpSystemObs) (stats : StreamStats) :
    Prop where
  packetsSent : stats.packetsSent = (measuredPackets t).length
  packetsAcked : stats.packetsAcked =
    (measuredPackets t).countP fun e => (firstAck e.1 (clientTrace t)).isSome
  packetsLost : stats.packetsLost =
    (measuredPackets t).countP fun e => (firstAck e.1 (clientTrace t)).isNone
  bytes : stats.bytes = stats.packetsSent * spec.payloadBytes.toNat
  packetsReordered : stats.packetsReordered = 0
  packetsAcked_le : stats.packetsAcked ≤ (served (serverTrace t)).length

/-- The measured events of a stream that has returned. -/
theorem measured_done {spec : StreamRunSpec} {start nextSend : ℕ} {t : List TcpSystemObs}
    {s : TcpSystemState} (h : (tcpSystem spec start nextSend).Reach t s)
    (hdone : s.client.pc = .done) :
    ((t.filterMap TcpSystemObs.event?).filter PacketEvent.measured).Perm
      ((measuredPackets t).map fun e =>
        packetEvent spec e.1 e.2 (firstAck e.1 (clientTrace t))) := by
  rw [filterMap_event?, measuredPackets]
  refine ((events_done h hdone).filter _).trans (List.Perm.of_eq ?_)
  rw [List.filter_map]
  rfl

/-- The bytes of the events of some packets. -/
theorem sum_bytes (spec : StreamRunSpec) (recv : ℕ × ℕ × Bool → Option ℕ)
    (packets : List (ℕ × ℕ × Bool)) :
    ((packets.map fun e => packetEvent spec e.1 e.2 (recv e)).map PacketEvent.bytes).sum =
      packets.length * spec.payloadBytes.toNat := by
  induction packets with
  | nil => exact (Nat.zero_mul _).symm
  | cons e packets ih =>
    rw [List.map_cons, List.map_cons, List.sum_cons, ih, List.length_cons, Nat.succ_mul,
      Nat.add_comm]
    rfl

theorem tcpReported {spec : StreamRunSpec} (hfit : spec.payloadBytes.toNat < 2 ^ 32)
    {start nextSend : ℕ} {t : List TcpSystemObs} {s : TcpSystemState}
    (h : (tcpSystem spec start nextSend).Reach t s) (hdone : s.client.pc = .done)
    {stats : StreamStats} (hstats : StreamReported (t.filterMap TcpSystemObs.event?) stats) :
    TcpReported spec t stats := by
  have hmeasured := measured_done h hdone
  have hsent : stats.packetsSent = (measuredPackets t).length := by
    rw [hstats.packetsSent, hmeasured.length_eq, List.length_map]
  refine ⟨hsent, ?_, ?_, ?_, ?_, ?_⟩
  · rw [hstats.packetsAcked, hmeasured.countP_eq, List.countP_map]
    rfl
  · rw [hstats.packetsLost, hmeasured.countP_eq, List.countP_map]
    rfl
  · rw [hstats.bytes, (hmeasured.map _).sum_eq, sum_bytes, hsent]
  · rw [hstats.packetsReordered, overtaken_eq_zero_iff, filterMap_event?]
    exact ((pairwise_acked hfit h).sublist
      (List.Sublist.filterMap _ List.filter_sublist)).imp le_of_lt
  · rw [hstats.packetsAcked, ← length_filterMap_ackedSeq, filterMap_event?]
    exact (List.Sublist.filterMap _ List.filter_sublist).length_le.trans (length_acked_le hfit h)

/-- In every run over TCP that returns `Ok`, with payloads whose length fits the header's field :
each stream wrote the packets `1..n` for some `n`, and all of them were entered. Whatever the engine
and the streams did in between, the report counts for each stream exactly the packets that it wrote
after its warm-up, and those of them whose acknowledgement it took. It acknowledges no more packets
of a stream than the server has read from it, and counts none as reordered. All streams together are
the aggregate. -/
theorem tcpRun_reports {cfg : RunConfig} {sessionId : UInt64} {started : ℕ}
    (hfit : cfg.payloadBytes.toNat < 2 ^ 32)
    {t : List (Pipe.Obs (Fin cfg.streams.toNat × TcpSystemObs) EngineObs)}
    {s : Pipe.State (Fin cfg.streams.toNat → Fleet.Stage (ℕ × ℕ) SetUpFailure TcpSystemState)
      PacketEvent (EngineState (Fin cfg.streams.toNat))}
    (h : (runSystem (tcpTasks cfg sessionId) (cfg.loopConfig started)).machine.Reach t s)
    (hpc : s.consumer.pc = .returned (.ok ())) :
    (∀ i, (∃ n, (written (clientTrace (streamPart t i))).map Prod.fst = List.range' 1 n) ∧
      (entered (clientTrace (streamPart t i))).map (fun e => (e.1, e.2.1)) =
        written (clientTrace (streamPart t i))) ∧
    (∀ stats ∈ (s.consumer.loop.report cfg).streams, ∃ i : Fin cfg.streams.toNat,
      stats.streamId = UInt32.ofNat i ∧
        TcpReported (cfg.streamSpec sessionId i) (streamPart t i) stats) ∧
    (∀ i, measuredPackets (streamPart t i) ≠ [] →
      ∃ stats ∈ (s.consumer.loop.report cfg).streams, stats.streamId = UInt32.ofNat i) ∧
    (s.consumer.loop.report cfg).aggregate.packetsSent =
      ∑ i, (measuredPackets (streamPart t i)).length ∧
    (s.consumer.loop.report cfg).aggregate.bytes =
      ∑ i, (measuredPackets (streamPart t i)).length * cfg.payloadBytes.toNat := by
  obtain ⟨hstreams, hreport⟩ := stagedTasks_reports streamId_events h hpc
  have hdone : ∀ i : Fin cfg.streams.toNat, ∃ (p : ℕ × ℕ) (c : TcpSystemState),
      c.client.pc = .done ∧
        (tcpSystem (cfg.streamSpec sessionId i) p.1 p.2).Reach (streamPart t i) c := by
    intro i
    obtain ⟨p, c, -, hexit, hreach⟩ := hstreams i
    exact ⟨p, c, Pc.exit_eq_returned hexit, hreach⟩
  have hmeasured : ∀ i : Fin cfg.streams.toNat, (((streamPart t i).filterMap
      TcpSystemObs.event?).filter PacketEvent.measured).Perm
        ((measuredPackets (streamPart t i)).map fun e => packetEvent (cfg.streamSpec sessionId i)
          e.1 e.2 (firstAck e.1 (clientTrace (streamPart t i)))) := by
    intro i
    obtain ⟨p, c, hc, hreach⟩ := hdone i
    exact measured_done hreach hc
  refine ⟨fun i => ?_, fun stats hstats => ?_, fun i hi => hreport.listed i ?_, ?_, ?_⟩
  · obtain ⟨p, c, hc, hreach⟩ := hdone i
    have hacc := accounted_reach (client_reach hreach)
    refine ⟨⟨_, hacc.numbered⟩, ?_⟩
    rw [hacc.ordered.written_eq, TcpState.writing, hc]
    simp [Pc.open]
  · obtain ⟨i, hid, hstream⟩ := hreport.stats stats hstats
    obtain ⟨p, c, hc, hreach⟩ := hdone i
    exact ⟨i, hid, tcpReported hfit hreach hc hstream⟩
  · have hne :
        ((streamPart t i).filterMap TcpSystemObs.event?).filter PacketEvent.measured ≠ [] := by
      rw [← List.length_pos_iff, (hmeasured i).length_eq, List.length_map]
      exact List.length_pos_iff.mpr hi
    obtain ⟨e, he⟩ := List.exists_mem_of_ne_nil _ hne
    exact ⟨e, (List.mem_filter.mp he).1, (List.mem_filter.mp he).2⟩
  · rw [hreport.packetsSent]
    exact Finset.sum_congr rfl fun i _ => by rw [(hmeasured i).length_eq, List.length_map]
  · rw [hreport.bytes]
    refine Finset.sum_congr rfl fun i _ => ?_
    rw [((hmeasured i).map _).sum_eq, sum_bytes]
    rfl

/-- One stream of ten nanoseconds. -/
def oneStream : RunConfig where
  transport := .tcp
  streams := 1
  duration := 10
  warmup := 0
  payloadBytes := 1
  rate := .bps 8000000000
  token := none
  interval := 1

/-- A packet is written, echoed in two chunks and acknowledged, and the stream ends. -/
def oneStreamRun : List (Pipe.Action (Fin 1 × Fleet.StageAction (ℕ × ℕ) SetUpFailure TcpSystemAction)
    (EngineAction (Fin 1))) :=
  [[.produce (onlyStream, .enter (0, 0))],
    [.replicate 6 (.client (.tick 1)), [.send 41, .serverRead 40, .serverNext, .serverRead 1,
      .serverNext, .serverWrite 30, .readerRead 30, .client (.tick 2), .serverWrite 10,
      .readerRead 10, .client (.tick 2), .readerNext 3], .replicate 3 (.client (.tick 3)),
      .replicate 5 (.client (.tick 12))].flatten.map fun a => .produce (onlyStream, .step a),
    [.recv, .own (.tick 20), .recv, .own (.join onlyStream .returned), .own .finish]].flatten

theorem oneStreamRun_exec :
    ((runSystem (tcpTasks oneStream 7) (oneStream.loopConfig 0)).machine.exec
      (runSystem (tcpTasks oneStream 7) (oneStream.loopConfig 0)).machine.init oneStreamRun).map
        (fun r => (r.1.consumer.pc.isOk,
          (r.1.consumer.loop.report oneStream).aggregate.packetsSent)) = some (true, 1) := by
  decide +kernel

theorem tcpRun_reports_oneStream :
    ∃ t s, (runSystem (tcpTasks oneStream 7) (oneStream.loopConfig 0)).machine.Reach t s ∧
      s.consumer.pc = .returned (.ok ()) ∧
      ∑ i, (measuredPackets (streamPart t i)).length = 1 := by
  obtain ⟨⟨s, t⟩, hexec, hshow⟩ := Option.map_eq_some_iff.mp oneStreamRun_exec
  have hreach := Machine.reach_exec hexec
  obtain ⟨hmatch, hcount⟩ := Prod.mk.inj hshow
  have hpc := EnginePc.isOk_iff.mp hmatch
  have hreports := tcpRun_reports (by decide) hreach hpc
  exact ⟨t, s, hreach, hpc, hreports.2.2.2.1.symm.trans hcount⟩

end Ipfusch
