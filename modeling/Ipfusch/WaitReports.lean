import Ipfusch.StreamReports
import Ipfusch.WaitRun
import Mathlib.Algebra.BigOperators.Ring.Finset

/-!
# Stop and wait in the report

What the report says of streams that stop and wait, over UDP or QUIC, if `run_benchmark` returns
`Ok` : all packets of a stream that were sent in the measurement are counted, and at most two
others, each as received or lost, and none as reordered (`WaitRunDone.waitRunReported`).
-/

namespace Ipfusch

/-! ## The end of the loop -/

/-- How the loop has ended. -/
def WaitPc.exit : WaitPc → Option StreamExit
  | .done => some .returned
  | .failed => some .failed
  | .panicked => some .panicked
  | _ => none

theorem WaitPc.exit_eq_returned {pc : WaitPc} (h : pc.exit = some .returned) : pc = .done := by
  cases pc <;> first | rfl | cases h

theorem WaitPc.exit_cases {pc : WaitPc} {e : StreamExit} (h : pc.exit = some e) :
    pc = .done ∨ pc = .failed ∨ pc = .panicked := by
  cases pc <;> first | exact .inl rfl | exact .inr (.inl rfl) | exact .inr (.inr rfl) | cases h

/-- A loop that has ended takes no step. -/
theorem waitTick_exit {spec : StreamRunSpec} {now : ℕ} {w : WaitState} {e : StreamExit}
    (h : w.pc.exit = some e) : waitTick spec w now = none := by
  unfold waitTick
  rcases WaitPc.exit_cases h with hpc | hpc | hpc <;> rw [hpc]

/-! ## A stream -/

/-- What the report says of a stream whose loop was entered at `start`. -/
structure WaitReported {β : Type} (spec : StreamRunSpec) (start : ℕ) (t : List (WaitObs β))
    (stats : StreamStats) : Prop where
  packetsSent : stats.packetsSent = ((waitEvents t).filter PacketEvent.measured).length
  window_le : (windowPackets spec start (sentPackets t)).length ≤ stats.packetsSent
  le_window : stats.packetsSent ≤ (windowPackets spec start (sentPackets t)).length + 2
  packetsAcked : stats.packetsAcked + stats.packetsLost = stats.packetsSent
  packetsReordered : stats.packetsReordered = 0
  bytes : stats.bytes = stats.packetsSent * spec.payloadBytes.toNat

/-- What happened on a stream whose loop was entered at `start` and has ended : the packets are
numbered from one, and each has its event. -/
structure WaitCompleted {β : Type} (spec : StreamRunSpec) (start clock : ℕ)
    (t : List (WaitObs β)) : Prop where
  seqs : (sentPackets t).map Prod.fst = List.range' 1 (sentPackets t).length
  packets : (packetLog t).map Prod.fst = sentPackets t
  events : (packetLog t).map Prod.snd = waitEvents t
  reported : ∀ x ∈ packetLog t, Reported spec start x.1 x.2
  ended : start + spec.warmup + spec.duration ≤ clock

section Stream

variable {β : Type} {spec : StreamRunSpec} {clock : ℕ} {t : List (WaitObs β)} {w : WaitState}

theorem WaitLog.completed (h : WaitLog spec clock t w) (hpc : w.pc = .done) :
    WaitCompleted spec w.start clock t := by
  have hplace := h.place
  unfold WaitPlace at hplace
  rw [hpc] at hplace
  exact ⟨h.seqs, (h.done hpc).1, (h.done hpc).2, h.reported, hplace.2⟩

/-- The events come in the order of their packets. -/
theorem WaitCompleted.pairwise_events {start : ℕ} (h : WaitCompleted spec start clock t) :
    (waitEvents t).Pairwise fun e e' => e.seq < e'.seq := by
  have hseq : (waitEvents t).map PacketEvent.seq = (sentPackets t).map Prod.fst := by
    rw [← h.events, ← h.packets, List.map_map, List.map_map]
    exact List.map_congr_left fun x hx => (h.reported x hx).seq
  rw [← List.pairwise_map (f := PacketEvent.seq) (R := (· < ·)), hseq, h.seqs]
  exact List.pairwise_lt_range'

theorem sum_bytes_eq {n : ℕ} {events : List PacketEvent} (h : ∀ e ∈ events, e.bytes = n) :
    (events.map PacketEvent.bytes).sum = events.length * n := by
  rw [List.map_congr_left h, List.map_const', List.sum_replicate, nsmul_eq_mul, Nat.cast_id]

theorem WaitLog.waitReported (h : WaitLog spec clock t w) (hpc : w.pc = .done)
    {stats : StreamStats} (hstats : StreamReported (waitEvents t) stats) :
    WaitReported spec w.start t stats := by
  obtain ⟨hle, hge⟩ := h.window hpc
  rw [← hstats.packetsSent] at hle hge
  refine ⟨hstats.packetsSent, hle, hge, ?_, ?_, ?_⟩
  · have hsplit := List.length_eq_countP_add_countP (fun e : PacketEvent => e.recvMonoNs.isSome)
      (l := (waitEvents t).filter PacketEvent.measured)
    simp only [Bool.not_eq_true, Option.isSome_eq_false_iff, Option.isNone_iff_eq_none] at hsplit
    rw [hstats.packetsAcked, hstats.packetsLost, hstats.packetsSent, hsplit]
    congr 1
    exact List.countP_congr fun e _ => by simp
  · rw [hstats.packetsReordered, overtaken_eq_zero_iff, List.pairwise_filterMap]
    refine ((h.completed hpc).pairwise_events.sublist List.filter_sublist).imp
      fun {e e'} hlt b hb b' hb' => ?_
    obtain ⟨_, -, rfl⟩ := Option.map_eq_some_iff.mp hb
    obtain ⟨_, -, rfl⟩ := Option.map_eq_some_iff.mp hb'
    exact hlt.le
  · rw [hstats.bytes, hstats.packetsSent, sum_bytes_eq fun e he => ?_]
    obtain ⟨p, -, hreported⟩ := h.reported_of_event (List.mem_filter.mp he).1
    exact hreported.bytes

end Stream

/-! ## All streams -/

/-- What the report says of a run whose streams stop and wait and have returned. -/
structure WaitRunReported {β : Type} (cfg : RunConfig) (sessionId : UInt64)
    (clock : Fin cfg.streams.toNat → ℕ) (parts : Fin cfg.streams.toNat → List (WaitObs β))
    (report : RunReport) : Prop where
  streams : ∀ i : Fin cfg.streams.toNat, ∃ start,
    WaitCompleted (cfg.streamSpec sessionId i) start (clock i) (parts i) ∧
    (windowPackets (cfg.streamSpec sessionId i) start (sentPackets (parts i)) ≠ [] →
      ∃ stats ∈ report.streams, stats.streamId = UInt32.ofNat i) ∧
    ∀ stats ∈ report.streams, stats.streamId = UInt32.ofNat i →
      WaitReported (cfg.streamSpec sessionId i) start (parts i) stats
  mem : ∀ stats ∈ report.streams, ∃ i : Fin cfg.streams.toNat, stats.streamId = UInt32.ofNat i
  packetsSent : report.aggregate.packetsSent =
    ∑ i, ((waitEvents (parts i)).filter PacketEvent.measured).length
  bytes : report.aggregate.bytes = report.aggregate.packetsSent * cfg.payloadBytes.toNat

/-- All streams stop and wait, and have left their loops, with what each step of a loop keeps. The
report is that of their events. -/
structure WaitRunDone {β : Type} (cfg : RunConfig) (sessionId : UInt64)
    (clock : Fin cfg.streams.toNat → ℕ) (parts : Fin cfg.streams.toNat → List (WaitObs β))
    (report : RunReport) : Prop where
  reported : RunReported (fun i => waitEvents (parts i)) report
  left : ∀ i : Fin cfg.streams.toNat, ∃ w : WaitState, w.pc = .done ∧
    ∀ P, WaitInvariant (cfg.streamSpec sessionId i) P → P (clock i) (parts i) w

theorem WaitRunDone.waitRunReported {β : Type} {cfg : RunConfig} {sessionId : UInt64}
    {clock : Fin cfg.streams.toNat → ℕ} {parts : Fin cfg.streams.toNat → List (WaitObs β)}
    {report : RunReport} (hrun : WaitRunDone cfg sessionId clock parts report) :
    WaitRunReported cfg sessionId clock parts report := by
  have h := hrun.reported
  have hlog : ∀ i : Fin cfg.streams.toNat, ∃ w, w.pc = .done ∧
      WaitLog (cfg.streamSpec sessionId i) (clock i) (parts i) w := by
    intro i
    obtain ⟨w, hpc, hinvariant⟩ := hrun.left i
    exact ⟨w, hpc, hinvariant _ (waitLog (cfg.streamSpec sessionId i))⟩
  refine ⟨fun i => ?_, fun stats hstats => ?_, h.packetsSent, ?_⟩
  · obtain ⟨w, hpc, hlog⟩ := hlog i
    refine ⟨w.start, hlog.completed hpc, fun hwindow => h.listed i ?_, fun stats hstats hid => ?_⟩
    · have hpos := (List.length_pos_iff.mpr hwindow).trans_le (hlog.window hpc).1
      obtain ⟨e, he⟩ := List.exists_mem_of_length_pos hpos
      exact ⟨e, List.mem_filter.mp he⟩
    · obtain ⟨j, hj, hreported⟩ := h.stats stats hstats
      obtain rfl := ofNat_inj_streams (hid.symm.trans hj)
      exact hlog.waitReported hpc hreported
  · obtain ⟨i, hi, -⟩ := h.stats stats hstats
    exact ⟨i, hi⟩
  · rw [h.bytes, h.packetsSent, Finset.sum_mul]
    refine Finset.sum_congr rfl fun i _ => sum_bytes_eq fun e he => ?_
    obtain ⟨w, -, hlog⟩ := hlog i
    obtain ⟨p, -, hreported⟩ := hlog.reported_of_event (List.mem_filter.mp he).1
    exact hreported.bytes

end Ipfusch
