import Ipfusch.Pacing
import Ipfusch.QuicRun
import Ipfusch.UdpRun

/-!
# The rate in the report

A stream that stops and waits paces its packets, and its loop sends at most one packet after its
end. So the report of a run does not show more than the configured rate over the warm-up and the
duration, but for two packets of each stream and the rounding of the delay (`RateKept`). The warm-up
counts, since a loop that was held up in it catches up later.
-/

namespace Ipfusch

/-! ## The pace of a stream -/

/-- The loop is paced from an instant after its start. -/
def WaitPaced {β : Type} (delay clock : ℕ) (t : List (WaitObs β)) (w : WaitState) : Prop :=
  (w.pc = .begin ∧ w.start ≤ clock ∧ sentTimes t = []) ∨
    ∃ first, w.start ≤ first ∧ w.OnPace delay first clock (sentTimes t)

section Stream

variable {β : Type} {spec : StreamRunSpec} {delay clock : ℕ} {t : List (WaitObs β)}
  {w w' : WaitState}

/-- What is not sent changes nothing, and the loop is where no packet is due. -/
theorem WaitPaced.idle (h : WaitPaced delay clock t w) (hbegin : w.pc ≠ .begin)
    {o : List (WaitObs β)} (ho : sentTimes o = []) (hstart : w'.start = w.start)
    (hnext : w'.nextSend = w.nextSend) (hpc : w'.pc = .head ∨ w'.pc = .failed) :
    WaitPaced delay clock (t ++ o) w' := by
  obtain ⟨first, hfirst, hpace⟩ := h.resolve_left fun hb => hbegin hb.1
  refine .inr ⟨first, hstart ▸ hfirst, ?_⟩
  rw [sentTimes_append]
  exact hpace.quiet hnext hpc ho

/-- Each step keeps the pace. -/
theorem waitPaced (hdelay : pacingDelay spec.payloadBytes spec.rateBps = some delay) :
    WaitInvariant (β := β) spec (WaitPaced delay) where
  start _ := .inl ⟨rfl, le_rfl, rfl⟩
  wait h hle := by
    rcases h with ⟨hpc, hstart, ht⟩ | ⟨first, hfirst, hpace⟩
    · exact .inl ⟨hpc, hstart.trans hle, ht⟩
    · exact .inr ⟨first, hfirst, hpace.toOnPace.wait hle, hpace.begun⟩
  arrived {clock t w} h b time := by
    have hnone : sentTimes (t ++ [.arrived b time]) = sentTimes t :=
      (sentTimes_append t _).trans (List.append_nil _)
    unfold WaitPaced at h ⊢
    rwa [hnone]
  tick {clock t w w'} h htick := by
    rcases h with ⟨hpc, hstart, ht⟩ | ⟨first, hfirst, hpace⟩
    · have hbegin : waitTick spec w clock = some { w with pc := .head, nextSend := clock } := by
        rw [waitTick, hpc]
      obtain rfl := Option.some.inj (htick.symm.trans hbegin)
      refine .inr ⟨clock, hstart, ?_, by simp⟩
      rw [ht]
      exact OnPace.start delay clock
    · refine .inr ⟨first, ?_, hpace.tick hdelay htick⟩
      rw [waitTick_start htick]
      exact hfirst
  sent {clock t w m} h hpc := by
    obtain ⟨first, hfirst, hpace⟩ := h.resolve_left fun hb => by rw [hpc] at hb; cases hb.1
    refine .inr ⟨first, hfirst, ?_⟩
    rw [sentTimes_append]
    exact hpace.sent hpc
  sendFails {clock t w m} h hpc := by
    have hidle : WaitPaced delay clock (t ++ []) { w with pc := .failed } :=
      h.idle (by simp [hpc]) rfl rfl rfl (.inr rfl)
    rwa [List.append_nil] at hidle
  report h hpc _ := h.idle (by simp [hpc]) rfl rfl rfl (.inl rfl)
  decodeFailed h hpc := h.idle (by simp [hpc]) rfl rfl rfl (.inr rfl)

theorem sentTimes_eq (t : List (WaitObs β)) : sentTimes t = (sentPackets t).map Prod.snd := by
  rw [sentTimes, sentPackets, List.map_filterMap]
  refine List.filterMap_congr fun o _ => ?_
  cases o <;> rfl

/-- The packets of a stream that has returned. -/
theorem WaitPaced.length_le (h : WaitPaced delay clock t w) (hlog : WaitLog spec clock t w)
    (hpc : w.pc = .done) (hpos : 0 < delay) :
    (sentPackets t).length ≤ (spec.warmup + spec.duration) / delay + 2 := by
  obtain ⟨first, hfirst, hpace⟩ := h.resolve_left fun hb => by rw [hpc] at hb; cases hb.1
  have hpaced : Paced delay first ((sentPackets t).map Prod.snd) := by
    rw [← sentTimes_eq]
    exact Pacer.paced hpace.reach
  rw [← List.length_map Prod.snd]
  refine hpaced.length_le hpos (List.pairwise_map.mpr (hlog.inTime.imp fun {p q} hlt => ?_))
  omega

end Stream

/-! ## The report -/

/-- The report shows no more than the rate `v` allows over the warm-up and the duration, but for two
packets of each stream and the rounding of the delay. -/
structure RateKept (cfg : RunConfig) (v : UInt64) (delay : ℕ) (report : RunReport) : Prop where
  packetsSent : ∀ stats ∈ report.streams,
    stats.packetsSent ≤ (cfg.warmup + cfg.duration) / delay + 2
  bits : (8 * report.aggregate.bytes : ℚ) ≤ cfg.streams.toNat * (16 * cfg.payloadBytes.toNat) +
    (1 + 1 / delay) * max v.toNat cfg.streams.toNat * (cfg.warmup + cfg.duration) / 10 ^ 9

section Report

variable {cfg : RunConfig} {sessionId v : UInt64} {delay : ℕ}

/-- The bits of as many packets as there are delays in a time. -/
theorem packet_bits_le {payload rate : ℕ} (hpos : 0 < delay)
    (hrate : payload * 8 * 1000000000 < rate * (delay + 1)) (span : ℕ) :
    (8 * payload * (span / delay : ℕ) : ℚ) ≤ (1 + 1 / delay) * rate * span / 10 ^ 9 := by
  have hdelay : (0 : ℚ) < delay := Nat.cast_pos.mpr hpos
  have hbits : (8 * payload : ℚ) ≤ rate * (delay + 1) / 10 ^ 9 := by
    rw [le_div_iff₀ (by positivity)]
    have hcast : ((payload * 8 * 1000000000 : ℕ) : ℚ) ≤ (rate * (delay + 1) : ℕ) :=
      Nat.cast_le.mpr hrate.le
    push_cast at hcast
    linarith
  calc (8 * payload * (span / delay : ℕ) : ℚ)
      ≤ 8 * payload * (span / delay) := by gcongr; exact Nat.cast_div_le
    _ ≤ rate * (delay + 1) / 10 ^ 9 * (span / delay) := by gcongr
    _ = (1 + 1 / delay) * rate * span / 10 ^ 9 := by field_simp

/-- If all streams have left their loops, then the report keeps the rate. -/
theorem WaitRunDone.rateKept {β : Type} {clock : Fin cfg.streams.toNat → ℕ}
    {parts : Fin cfg.streams.toNat → List (WaitObs β)} {report : RunReport}
    (hv : (resolveRate cfg.rate cfg.transport).1 = some v)
    (hfit : cfg.payloadBytes.toNat * 8 * 1000000000 / max 1 (v.toNat / cfg.streams.toNat) < 2 ^ 64)
    (hdelay : pacingDelay cfg.payloadBytes (perStreamRate (some v) cfg.streams) = some delay)
    (h : WaitRunDone cfg sessionId clock parts report) : RateKept cfg v delay report := by
  obtain ⟨hrate, hall⟩ := perStreamRate_bounds v cfg.streams
  rw [← hrate] at hfit
  obtain ⟨hpos, hbits⟩ := pacingDelay_bounds hdelay hfit
  have hcount : ∀ i : Fin cfg.streams.toNat, ((waitEvents (parts i)).filter
      PacketEvent.measured).length ≤ (cfg.warmup + cfg.duration) / delay + 2 := by
    intro i
    obtain ⟨w, hpc, hinvariant⟩ := h.left i
    have hpaced := hinvariant _ (waitPaced (by rw [← hdelay, ← hv]; rfl))
    have hlog := hinvariant _ (waitLog (cfg.streamSpec sessionId i))
    exact (List.length_filter_le _ _).trans (hlog.length_le.trans (hpaced.length_le hlog hpc hpos))
  refine ⟨fun stats hstats => ?_, ?_⟩
  · obtain ⟨i, -, hreported⟩ := h.reported.stats stats hstats
    rw [hreported.packetsSent]
    exact hcount i
  · have hreports := h.waitRunReported
    have hsent : report.aggregate.packetsSent ≤
        cfg.streams.toNat * ((cfg.warmup + cfg.duration) / delay + 2) := by
      rw [hreports.packetsSent]
      refine (Finset.sum_le_card_nsmul _ _ _ fun i _ => hcount i).trans ?_
      rw [Finset.card_univ, Fintype.card_fin, nsmul_eq_mul, Nat.cast_id]
    have hbytes : (report.aggregate.bytes : ℚ) ≤ cfg.streams.toNat *
        (((cfg.warmup + cfg.duration) / delay : ℕ) + 2) * cfg.payloadBytes.toNat := by
      rw [hreports.bytes]
      exact_mod_cast Nat.mul_le_mul_right cfg.payloadBytes.toNat hsent
    have hpacket := packet_bits_le hpos hbits (cfg.warmup + cfg.duration)
    have hcast : (cfg.streams.toNat : ℚ) * (max (v / cfg.streams.toUInt64) 1).toNat ≤
        max v.toNat cfg.streams.toNat := by
      exact_mod_cast hall
    calc (8 * report.aggregate.bytes : ℚ)
        ≤ 8 * (cfg.streams.toNat * (((cfg.warmup + cfg.duration) / delay : ℕ) + 2) *
            cfg.payloadBytes.toNat) := by gcongr
      _ = cfg.streams.toNat * (16 * cfg.payloadBytes.toNat) + cfg.streams.toNat *
            (8 * cfg.payloadBytes.toNat * ((cfg.warmup + cfg.duration) / delay : ℕ)) := by ring
      _ ≤ cfg.streams.toNat * (16 * cfg.payloadBytes.toNat) + cfg.streams.toNat *
            ((1 + 1 / delay) * (max (v / cfg.streams.toUInt64) 1).toNat *
              (cfg.warmup + cfg.duration : ℕ) / 10 ^ 9) := by gcongr
      _ = cfg.streams.toNat * (16 * cfg.payloadBytes.toNat) + (1 + 1 / delay) *
            (cfg.streams.toNat * (max (v / cfg.streams.toUInt64) 1).toNat) *
              (cfg.warmup + cfg.duration) / 10 ^ 9 := by push_cast; ring
      _ ≤ cfg.streams.toNat * (16 * cfg.payloadBytes.toNat) + (1 + 1 / delay) *
            max v.toNat cfg.streams.toNat * (cfg.warmup + cfg.duration) / 10 ^ 9 := by gcongr

/-- In every run over UDP with a rate, given or chosen, that returns `Ok`, whatever the network,
other peers, the engine and the server do: the report keeps the rate. -/
theorem udpRun_rateKept (sha256 : List UInt8 → Digest) {Peer : Type} [DecidableEq Peer]
    {token : Option String} {peer : Fin cfg.streams.toNat ↪ Peer} {started : ℕ}
    {t : List (Pipe.Obs (Fin cfg.streams.toNat × UdpObs) EngineObs)}
    {s : Pipe.State (UdpFleet (Fin cfg.streams.toNat) Peer) PacketEvent
      (EngineState (Fin cfg.streams.toNat))}
    (hv : (resolveRate cfg.rate cfg.transport).1 = some v)
    (hfit : cfg.payloadBytes.toNat * 8 * 1000000000 / max 1 (v.toNat / cfg.streams.toNat) < 2 ^ 64)
    (hdelay : pacingDelay cfg.payloadBytes (perStreamRate (some v) cfg.streams) = some delay)
    (h : (runSystem (udpTasks sha256 cfg sessionId token peer)
      (cfg.loopConfig started)).machine.Reach t s)
    (hpc : s.consumer.pc = .returned (.ok ())) :
    RateKept cfg v delay (s.consumer.loop.report cfg).toRunReport :=
  (udpRun_done sha256 h hpc).rateKept hv hfit hdelay

/-- The same for every run over QUIC, whatever the streams of bytes, the servers and the engine
do. -/
theorem quicRun_rateKept {started : ℕ}
    {t : List (Pipe.Obs (Fin cfg.streams.toNat × QuicEchoObs) EngineObs)}
    {s : Pipe.State (Fin cfg.streams.toNat → Fleet.Stage ℕ SetUpFailure QuicTaskState) PacketEvent
      (EngineState (Fin cfg.streams.toNat))}
    (hv : (resolveRate cfg.rate cfg.transport).1 = some v)
    (hfit : cfg.payloadBytes.toNat * 8 * 1000000000 / max 1 (v.toNat / cfg.streams.toNat) < 2 ^ 64)
    (hdelay : pacingDelay cfg.payloadBytes (perStreamRate (some v) cfg.streams) = some delay)
    (h : (runSystem (quicTasks cfg sessionId) (cfg.loopConfig started)).machine.Reach t s)
    (hpc : s.consumer.pc = .returned (.ok ())) :
    RateKept cfg v delay (s.consumer.loop.report cfg).toRunReport :=
  (quicRun_done h hpc).rateKept hv hfit hdelay

end Report

theorem udpRun_rateKept_oneStream :
    ∃ t s, (runSystem oneUdpTask (oneUdpStream.loopConfig 0)).machine.Reach t s ∧
      s.consumer.pc = .returned (.ok ()) ∧
      RateKept oneUdpStream 8000000000 1 (s.consumer.loop.report oneUdpStream).toRunReport := by
  obtain ⟨⟨s, t⟩, hexec, hshow⟩ := Option.map_eq_some_iff.mp oneUdpRun_exec
  have hreach := Machine.reach_exec hexec
  have hpc := EnginePc.isOk_iff.mp (Prod.mk.inj hshow).1
  exact ⟨t, s, hreach, hpc,
    udpRun_rateKept noHash rfl (by decide +kernel) (by decide +kernel) hreach hpc⟩

theorem quicRun_rateKept_oneStream :
    ∃ t s, (runSystem (quicTasks oneQuicStream 7) (oneQuicStream.loopConfig 0)).machine.Reach t s ∧
      s.consumer.pc = .returned (.ok ()) ∧
      RateKept oneQuicStream 8000000000 1 (s.consumer.loop.report oneQuicStream).toRunReport := by
  obtain ⟨⟨s, t⟩, hexec, hshow⟩ := Option.map_eq_some_iff.mp oneQuicRun_exec
  have hreach := Machine.reach_exec hexec
  have hpc := EnginePc.isOk_iff.mp (Prod.mk.inj hshow).1
  exact ⟨t, s, hreach, hpc, quicRun_rateKept rfl (by decide +kernel)
    (by decide +kernel) hreach hpc⟩

end Ipfusch
