import Ipfusch.Accumulators
import Ipfusch.KeyedFold
import Mathlib.Data.List.GetD

/-!
# The statistics of a run

`apply_event` is a keyed fold : the map of accumulators is `KeyedFold.fold` over the events,
and the totals, the pooled latencies and the histogram are folds over all of them
(`streams_foldl`, `totals_foldl`). Of the loop of `run_benchmark` only the measured events
count for these, whatever ticks come in between (`final_runLoop`).

`statistics_conserve` : no packet and no byte is counted twice or forgotten, for a stream, for
the totals and in the report. `packetsReordered_eq_zero` : if the acknowledged packets of a
stream are reported in increasing order, no packet of it is counted as reordered.
`report_interleaving` : the report of the streams, the aggregate and the histogram depend on the
events of each stream alone.
-/

namespace Ipfusch

/-! ## The accumulators as folds -/

/-- The measured events among some inputs. -/
def measuredEvents (inputs : List LoopInput) : List PacketEvent :=
  (inputs.filterMap LoopInput.event?).filter PacketEvent.measured

/-- The latency of an acknowledged packet. -/
def PacketEvent.latency (event : PacketEvent) : Option ℚ :=
  event.recvMonoNs.map (latencyMs event.sendMonoNs)

theorem streams_applyEvent (m : Metrics) (event : PacketEvent) : (applyEvent m event).streams =
    KeyedFold.insert PacketEvent.streamId {} StreamAccumulator.record m.streams event := by
  unfold applyEvent
  cases event.recvMonoNs <;> rfl

theorem globalLatencies_applyEvent (m : Metrics) (event : PacketEvent) :
    (applyEvent m event).globalLatencies = m.globalLatencies ++ event.latency.toList := by
  unfold applyEvent PacketEvent.latency
  cases event.recvMonoNs with
  | none => exact (List.append_nil _).symm
  | some recvNs => rfl

/-- The value that an acknowledged packet adds to the histogram. -/
def PacketEvent.recorded (event : PacketEvent) : List ℕ :=
  event.latency.toList.flatMap fun latencyMs =>
    (Histogram.record ⟨[]⟩ ⌊max (latencyMs * 1000) 1⌋₊).values

theorem Histogram.values_record (h : Histogram) (v : ℕ) :
    (h.record v).values = h.values ++ (Histogram.record ⟨[]⟩ v).values := by
  unfold Histogram.record
  split_ifs <;> simp

theorem histogram_applyEvent (m : Metrics) (event : PacketEvent) :
    (applyEvent m event).histogram.values = m.histogram.values ++ event.recorded := by
  unfold applyEvent PacketEvent.recorded PacketEvent.latency
  cases event.recvMonoNs with
  | none => exact (List.append_nil _).symm
  | some recvNs =>
    simp only [Option.map_some, Option.toList_some, List.flatMap_singleton]
    exact Histogram.values_record _ _

/-- The map of accumulators is a keyed fold. -/
theorem streams_foldl (events : List PacketEvent) : (events.foldl applyEvent {}).streams =
    KeyedFold.fold PacketEvent.streamId {} StreamAccumulator.record events := by
  induction events using List.reverseRecOn with
  | nil => rfl
  | append_singleton events event ih =>
    rw [List.foldl_concat, streams_applyEvent, ih, KeyedFold.fold, KeyedFold.fold,
      List.foldl_concat]

/-- The totals count the events. -/
theorem totals_foldl (events : List PacketEvent) : (events.foldl applyEvent {}).totals =
    { packetsSent := events.length
      packetsAcked := events.countP fun e => e.recvMonoNs.isSome
      packetsLost := events.countP fun e => e.recvMonoNs.isNone
      bytes := (events.map PacketEvent.bytes).sum } := by
  induction events using List.reverseRecOn with
  | nil => rfl
  | append_singleton events event ih =>
    rw [List.foldl_concat, totals_applyEvent, ih]
    unfold Totals.record
    cases hrecv : event.recvMonoNs <;> simp [hrecv]

theorem globalLatencies_foldl (events : List PacketEvent) :
    (events.foldl applyEvent {}).globalLatencies = events.filterMap PacketEvent.latency := by
  induction events using List.reverseRecOn with
  | nil => rfl
  | append_singleton events event ih =>
    rw [List.foldl_concat, globalLatencies_applyEvent, ih, List.filterMap_append]
    cases h : event.latency <;> simp [h]

theorem histogram_foldl (events : List PacketEvent) :
    (events.foldl applyEvent {}).histogram.values = events.flatMap PacketEvent.recorded := by
  induction events using List.reverseRecOn with
  | nil => rfl
  | append_singleton events event ih =>
    rw [List.foldl_concat, histogram_applyEvent, ih, List.flatMap_append, List.flatMap_singleton]

/-! ## The loop -/

/-- What the report is made of : the metrics without the samples of the interval. -/
def Metrics.final (m : Metrics) : Metrics :=
  { m with intervalLatencies := [], intervalJitters := [] }

theorem final_applyEvent (m : Metrics) (event : PacketEvent) :
    (applyEvent m.final event).final = (applyEvent m event).final := by
  unfold applyEvent
  cases event.recvMonoNs <;> rfl

theorem final_foldl : ∀ (events : List PacketEvent) (m : Metrics),
    (events.foldl applyEvent m.final).final = (events.foldl applyEvent m).final
  | [], _ => rfl
  | event :: events, m => by
    rw [List.foldl_cons, List.foldl_cons, ← final_foldl events, final_applyEvent,
      final_foldl events]

theorem final_onTick (cfg : LoopConfig) (s : LoopState) (now : ℕ) :
    (onTick cfg s now).metrics.final = s.metrics.final := by
  unfold onTick
  split_ifs <;> rfl

/-- Ticks and events that are not measured change nothing that is reported at the end. -/
theorem final_runLoop (cfg : LoopConfig) : ∀ (inputs : List LoopInput) (s : LoopState),
    (runLoop cfg s inputs).metrics.final =
      ((measuredEvents inputs).foldl applyEvent s.metrics).final
  | [], _ => rfl
  | .tick now :: inputs, s => by
    rw [runLoop_cons, final_runLoop cfg inputs, loopStep, ← final_foldl, final_onTick, final_foldl]
    rfl
  | .event event :: inputs, s => by
    rw [runLoop_cons, final_runLoop cfg inputs]
    unfold loopStep measuredEvents
    simp only [List.filterMap_cons, LoopInput.event?, List.filter_cons]
    by_cases hmeasured : event.measured = true <;> simp [hmeasured]

/-- The report, from the measured events. -/
theorem runBenchmark_eq (cfg : LoopConfig) (inputs : List LoopInput) :
    let m := (measuredEvents inputs).foldl applyEvent {}
    let elapsedSecs := durationSecs cfg.duration
    (runBenchmark cfg inputs).streams = streamStatsFromMap m.streams elapsedSecs ∧
      (runBenchmark cfg inputs).aggregate = buildAggregate m.streams m.totals elapsedSecs ∧
      (runBenchmark cfg inputs).latencyHistogram =
        buildHistogram m.globalLatencies m.histogram := by
  have h := final_runLoop cfg inputs {}
  have hstreams := congrArg Metrics.streams h
  have htotals := congrArg Metrics.totals h
  have hlatencies := congrArg Metrics.globalLatencies h
  have hhistogram := congrArg Metrics.histogram h
  simp only [Metrics.final] at hstreams htotals hlatencies hhistogram
  refine ⟨?_, ?_, ?_⟩
  · rw [runBenchmark, hstreams]
  · rw [runBenchmark, hstreams, htotals]
  · rw [runBenchmark, hlatencies, hhistogram]

/-! ## The accumulator of a stream -/

/-- How many numbers come after a larger one. -/
def overtaken (seqs : List ℕ) : ℕ :=
  (List.range seqs.length).countP fun i => (seqs.take i).any fun m => seqs.getD i 0 < m

theorem overtaken_concat (seqs : List ℕ) (seq : ℕ) :
    overtaken (seqs ++ [seq]) = overtaken seqs + if seqs.any (seq < ·) then 1 else 0 := by
  have hold : (List.range seqs.length).countP (fun i =>
      ((seqs ++ [seq]).take i).any fun m => (seqs ++ [seq]).getD i 0 < m) = overtaken seqs := by
    refine List.countP_congr fun i hi => ?_
    have hlt : i < seqs.length := List.mem_range.mp hi
    rw [List.take_append_of_le_length hlt.le, List.getD_append _ _ _ _ hlt]
  unfold overtaken
  rw [List.length_append, List.length_singleton, List.range_succ, List.countP_append, hold]
  simp [overtaken]

/-- The first number comes after no other. -/
theorem overtaken_le (seqs : List ℕ) : overtaken seqs ≤ seqs.length - 1 := by
  induction seqs using List.reverseRecOn with
  | nil => exact le_rfl
  | append_singleton seqs seq ih =>
    rw [overtaken_concat, List.length_append, List.length_singleton]
    cases seqs with
    | nil => simp [overtaken]
    | cons a seqs =>
      rw [List.length_cons] at ih ⊢
      split_ifs <;> omega

/-- No number comes after a larger one. -/
theorem overtaken_eq_zero_iff {seqs : List ℕ} : overtaken seqs = 0 ↔ seqs.Pairwise (· ≤ ·) := by
  induction seqs using List.reverseRecOn with
  | nil => simp [overtaken]
  | append_singleton seqs seq ih =>
    have hlast : (if seqs.any (seq < ·) then 1 else 0) = 0 ↔ ∀ m ∈ seqs, m ≤ seq := by
      simp
    rw [overtaken_concat, Nat.add_eq_zero_iff, ih, hlast, List.pairwise_append]
    simp

/-- What the accumulator of a stream says about its events. -/
structure Accounts (events : List PacketEvent) (s : StreamAccumulator) : Prop where
  packetsSent : s.packetsSent = events.length
  packetsAcked : s.packetsAcked = (events.filterMap PacketEvent.ackedSeq).length
  packetsLost : s.packetsLost = events.countP fun e => e.recvMonoNs.isNone
  bytes : s.bytes = (events.map PacketEvent.bytes).sum
  sent_eq : s.packetsSent = s.packetsAcked + s.packetsLost
  latenciesMs : s.latenciesMs = events.filterMap PacketEvent.latency
  length_latenciesMs : s.latenciesMs.length = s.packetsAcked
  length_jittersMs : s.jittersMs.length = s.packetsAcked - 1
  packetsReordered : s.packetsReordered = overtaken (events.filterMap PacketEvent.ackedSeq)
  packetsReordered_le : s.packetsReordered ≤ s.packetsAcked - 1

/-- The accounts, with the variables that the next event depends on. -/
structure Recorded (events : List PacketEvent) (s : StreamAccumulator) : Prop
    extends Accounts events s where
  lastSeq : ∀ seq, seq < s.lastSeq ↔ ∃ m ∈ events.filterMap PacketEvent.ackedSeq, seq < m
  lastLatencyMs : s.lastLatencyMs.isSome = true ↔ s.packetsAcked ≠ 0

theorem recorded_nil : Recorded [] {} where
  packetsSent := rfl
  packetsAcked := rfl
  packetsLost := rfl
  bytes := rfl
  sent_eq := rfl
  latenciesMs := rfl
  length_latenciesMs := rfl
  length_jittersMs := rfl
  packetsReordered := rfl
  packetsReordered_le := le_rfl
  lastSeq seq := by simp
  lastLatencyMs := by simp

theorem Recorded.lost {events : List PacketEvent} {s : StreamAccumulator} (h : Recorded events s)
    {event : PacketEvent} (hrecv : event.recvMonoNs = none) :
    Recorded (events ++ [event]) (s.record event) := by
  have hacked : (events ++ [event]).filterMap PacketEvent.ackedSeq =
      events.filterMap PacketEvent.ackedSeq := by simp [PacketEvent.ackedSeq, hrecv]
  have hlatency : (events ++ [event]).filterMap PacketEvent.latency =
      events.filterMap PacketEvent.latency := by simp [PacketEvent.latency, hrecv]
  have hrecord : s.record event = { s with
      packetsSent := s.packetsSent + 1
      bytes := s.bytes + event.bytes
      packetsLost := s.packetsLost + 1 } := by
    unfold StreamAccumulator.record
    rw [hrecv]
  rw [hrecord]
  refine ⟨⟨?_, ?_, ?_, ?_, ?_, ?_, h.length_latenciesMs, h.length_jittersMs, ?_,
    h.packetsReordered_le⟩, ?_, h.lastLatencyMs⟩
  · simp [h.packetsSent]
  · rw [hacked]
    exact h.packetsAcked
  · simp [h.packetsLost, hrecv]
  · simp [h.bytes]
  · have := h.sent_eq
    dsimp only
    omega
  · rw [hlatency]
    exact h.latenciesMs
  · rw [hacked]
    exact h.packetsReordered
  · rw [hacked]
    exact h.lastSeq

theorem Recorded.acked {events : List PacketEvent} {s : StreamAccumulator} (h : Recorded events s)
    {event : PacketEvent} {recvNs : ℕ} (hrecv : event.recvMonoNs = some recvNs) :
    Recorded (events ++ [event]) (s.record event) := by
  have hacked : (events ++ [event]).filterMap PacketEvent.ackedSeq =
      events.filterMap PacketEvent.ackedSeq ++ [event.seq] := by
    simp [PacketEvent.ackedSeq, hrecv]
  have hlatency : (events ++ [event]).filterMap PacketEvent.latency =
      events.filterMap PacketEvent.latency ++ [latencyMs event.sendMonoNs recvNs] := by
    simp [PacketEvent.latency, hrecv]
  have hrecord : s.record event = { s with
      packetsSent := s.packetsSent + 1
      bytes := s.bytes + event.bytes
      packetsAcked := s.packetsAcked + 1
      latenciesMs := s.latenciesMs ++ [latencyMs event.sendMonoNs recvNs]
      jittersMs := s.jittersMs ++ s.jitter (latencyMs event.sendMonoNs recvNs)
      lastLatencyMs := some (latencyMs event.sendMonoNs recvNs)
      packetsReordered :=
        if event.seq < s.lastSeq then s.packetsReordered + 1 else s.packetsReordered
      lastSeq := max s.lastSeq event.seq } := by
    unfold StreamAccumulator.record
    rw [hrecv]
    rfl
  have hlate : (events.filterMap PacketEvent.ackedSeq).any (event.seq < ·) = true ↔
      event.seq < s.lastSeq := by
    rw [h.lastSeq, List.any_eq_true]
    simp only [decide_eq_true_eq]
  have hreordered : (if event.seq < s.lastSeq then s.packetsReordered + 1 else s.packetsReordered) =
      overtaken (events.filterMap PacketEvent.ackedSeq ++ [event.seq]) := by
    rw [overtaken_concat, ← h.packetsReordered]
    simp only [hlate]
    split_ifs <;> rfl
  rw [hrecord]
  refine ⟨⟨?_, ?_, ?_, ?_, ?_, ?_, ?_, ?_, ?_, ?_⟩, ?_, by simp⟩
  · simp [h.packetsSent]
  · rw [hacked, List.length_append, ← h.packetsAcked]
    rfl
  · simp [h.packetsLost, hrecv]
  · simp [h.bytes]
  · have := h.sent_eq
    dsimp only
    omega
  · rw [hlatency, ← h.latenciesMs]
  · rw [List.length_append, h.length_latenciesMs]
    rfl
  · -- the first latency of a stream has no jitter
    have hjitter : (s.jitter (latencyMs event.sendMonoNs recvNs)).length =
        if s.packetsAcked = 0 then 0 else 1 := by
      have hlast := h.lastLatencyMs
      unfold StreamAccumulator.jitter
      cases hs : s.lastLatencyMs <;> simp_all
    rw [List.length_append, h.length_jittersMs, hjitter]
    dsimp only
    split_ifs <;> omega
  · rw [hacked]
    exact hreordered
  · rw [hreordered]
    refine (overtaken_le _).trans (le_of_eq ?_)
    rw [List.length_append, ← h.packetsAcked]
    rfl
  · intro seq
    rw [hacked, lt_max_iff, h.lastSeq]
    simp [or_and_right, exists_or]

/-- The accumulator accounts for its events. -/
theorem accounts_foldl (events : List PacketEvent) :
    Accounts events (events.foldl StreamAccumulator.record {}) := by
  suffices h : Recorded events (events.foldl StreamAccumulator.record {}) from h.toAccounts
  induction events using List.reverseRecOn with
  | nil => exact recorded_nil
  | append_singleton events event ih =>
    rw [List.foldl_concat]
    cases hrecv : event.recvMonoNs with
    | none => exact ih.lost hrecv
    | some recvNs => exact ih.acked hrecv

/-! ## Reordered packets -/

/-- If the acknowledged packets of a stream are reported in increasing order, none of them is
counted as reordered. -/
theorem packetsReordered_runLoop (cfg : LoopConfig) {streamId : UInt32} {inputs : List LoopInput}
    (h : ((eventsOf streamId inputs).filterMap PacketEvent.ackedSeq).Pairwise (· < ·)) :
    ((runLoop cfg {} inputs).metrics.accumulator streamId).packetsReordered = 0 := by
  have hzero : (({} : LoopState).metrics.accumulator streamId) = {} := Std.TreeMap.getD_emptyc
  have hsorted : (((eventsOf streamId inputs).filter PacketEvent.measured).filterMap
      PacketEvent.ackedSeq).Pairwise (· ≤ ·) :=
    (h.sublist (List.Sublist.filterMap _ List.filter_sublist)).imp le_of_lt
  rw [accumulator_runLoop, hzero, (accounts_foldl _).packetsReordered]
  exact overtaken_eq_zero_iff.mpr hsorted

/-- The same for the report. -/
theorem packetsReordered_eq_zero (cfg : LoopConfig) {streamId : UInt32} {inputs : List LoopInput}
    (h : ((eventsOf streamId inputs).filterMap PacketEvent.ackedSeq).Pairwise (· < ·)) :
    ∀ stats ∈ (runBenchmark cfg inputs).streams, stats.streamId = streamId →
      stats.packetsReordered = 0 := by
  intro stats hstats hid
  obtain ⟨⟨id, acc⟩, hmem, rfl⟩ := List.mem_map.mp hstats
  obtain rfl : id = streamId := hid
  have hacc : acc = (runLoop cfg {} inputs).metrics.accumulator id := by
    rw [Metrics.accumulator, Std.TreeMap.getD_eq_getD_getElem?,
      Std.TreeMap.mem_toList_iff_getElem?_eq_some.mp hmem]
    rfl
  show acc.packetsReordered = 0
  rw [hacc]
  exact packetsReordered_runLoop cfg h

/-! ## Conservation -/

/-- No packet and no byte of the events is counted twice or forgotten. -/
structure Conserves (events : List PacketEvent) (m : Metrics) : Prop where
  totals : m.totals =
    { packetsSent := events.length
      packetsAcked := events.countP fun e => e.recvMonoNs.isSome
      packetsLost := events.countP fun e => e.recvMonoNs.isNone
      bytes := (events.map PacketEvent.bytes).sum }
  sent_eq : m.totals.packetsSent = m.totals.packetsAcked + m.totals.packetsLost
  streams : ∀ {id s}, (id, s) ∈ m.streams.toList →
    Accounts (KeyedFold.ofKey PacketEvent.streamId id events) s
  sum_packetsSent :
    (m.streams.values.map StreamAccumulator.packetsSent).sum = m.totals.packetsSent
  sum_packetsAcked :
    (m.streams.values.map StreamAccumulator.packetsAcked).sum = m.totals.packetsAcked
  sum_packetsLost :
    (m.streams.values.map StreamAccumulator.packetsLost).sum = m.totals.packetsLost
  sum_bytes : (m.streams.values.map StreamAccumulator.bytes).sum = m.totals.bytes

/-- The statistics of the streams add up to the aggregate. -/
structure StatsConserve (streams : List StreamStats) (aggregate : AggregateStats) : Prop where
  sent_eq : aggregate.packetsSent = aggregate.packetsAcked + aggregate.packetsLost
  stream_sent_eq : ∀ s ∈ streams, s.packetsSent = s.packetsAcked + s.packetsLost
  stream_reordered_le : ∀ s ∈ streams, s.packetsReordered ≤ s.packetsAcked - 1
  sum_packetsSent : (streams.map StreamStats.packetsSent).sum = aggregate.packetsSent
  sum_packetsAcked : (streams.map StreamStats.packetsAcked).sum = aggregate.packetsAcked
  sum_packetsLost : (streams.map StreamStats.packetsLost).sum = aggregate.packetsLost
  sum_packetsReordered :
    (streams.map StreamStats.packetsReordered).sum = aggregate.packetsReordered
  sum_bytes : (streams.map StreamStats.bytes).sum = aggregate.bytes
  lossPct : 0 ≤ aggregate.lossPct ∧ aggregate.lossPct ≤ 100

theorem lossPct_le {packetsLost packetsSent : ℕ} (h : packetsLost ≤ packetsSent) :
    0 ≤ lossPct packetsLost packetsSent ∧ lossPct packetsLost packetsSent ≤ 100 := by
  unfold lossPct
  split_ifs with h0
  · norm_num
  · have hpos : (0 : ℚ) < packetsSent := by exact_mod_cast Nat.pos_of_ne_zero h0
    have hle : (packetsLost : ℚ) ≤ packetsSent := by exact_mod_cast h
    refine ⟨by positivity, (div_le_iff₀ hpos).mpr ?_⟩
    linarith

/-- An accumulator adds up a quantity of its events. -/
theorem sum_values_streams {μ : StreamAccumulator → ℕ} {w : PacketEvent → ℕ} (h0 : μ {} = 0)
    (h : ∀ s e, μ (s.record e) = μ s + w e) (events : List PacketEvent) :
    ((events.foldl applyEvent {}).streams.values.map μ).sum = (events.map w).sum := by
  rw [streams_foldl]
  exact KeyedFold.sum_values_fold PacketEvent.streamId h0 h events

theorem sum_map_ite (events : List PacketEvent) (p : PacketEvent → Bool) :
    (events.map fun e => if p e then 1 else 0).sum = events.countP p := by
  induction events with
  | nil => rfl
  | cons e events ih =>
    rw [List.map_cons, List.sum_cons, ih, List.countP_cons, Nat.add_comm]

/-- The accumulators conserve packets and bytes. -/
theorem conserves_foldl (events : List PacketEvent) :
    Conserves events (events.foldl applyEvent {}) := by
  have htotals := totals_foldl events
  have hcount : events.length = (events.countP fun e => e.recvMonoNs.isSome) +
      events.countP fun e => e.recvMonoNs.isNone := by
    rw [List.length_eq_countP_add_countP (fun e : PacketEvent => e.recvMonoNs.isSome)]
    refine congrArg _ (List.countP_congr fun e _ => ?_)
    cases e.recvMonoNs <;> simp
  refine ⟨htotals, by rw [htotals]; exact hcount, fun {id s} hmem => ?_, ?_, ?_, ?_, ?_⟩
  · rw [streams_foldl] at hmem
    rw [KeyedFold.mem_toList_fold _ _ _ hmem]
    exact accounts_foldl _
  · rw [htotals, sum_values_streams (w := fun _ => 1) rfl fun s e => ?_]
    · simp
    · unfold StreamAccumulator.record
      cases e.recvMonoNs <;> rfl
  · rw [htotals, sum_values_streams (w := fun e => if e.recvMonoNs.isSome then 1 else 0) rfl
      fun s e => ?_, sum_map_ite]
    unfold StreamAccumulator.record
    cases e.recvMonoNs <;> rfl
  · rw [htotals, sum_values_streams (w := fun e => if e.recvMonoNs.isNone then 1 else 0) rfl
      fun s e => ?_, sum_map_ite]
    unfold StreamAccumulator.record
    cases e.recvMonoNs <;> rfl
  · rw [htotals, sum_values_streams (w := PacketEvent.bytes) rfl fun s e => ?_]
    unfold StreamAccumulator.record
    cases e.recvMonoNs <;> rfl

/-- A quantity that the statistics of a stream take over from its accumulator. -/
theorem sum_streamStats {map : Std.TreeMap UInt32 StreamAccumulator} {elapsedSecs : ℚ}
    {f : StreamStats → ℕ} {μ : StreamAccumulator → ℕ}
    (h : (streamStatsFromMap map elapsedSecs).map f = map.toList.map fun p => μ p.2) :
    ((streamStatsFromMap map elapsedSecs).map f).sum = (map.values.map μ).sum := by
  rw [h, KeyedFold.values_eq, List.map_map]
  rfl

/-- So do the statistics that are built from them. -/
theorem Conserves.stats {events : List PacketEvent} {m : Metrics} (h : Conserves events m)
    (elapsedSecs : ℚ) : StatsConserve (streamStatsFromMap m.streams elapsedSecs)
      (buildAggregate m.streams m.totals elapsedSecs) where
  sent_eq := h.sent_eq
  stream_sent_eq stats hstats := by
    obtain ⟨⟨id, s⟩, hmem, rfl⟩ := List.mem_map.mp hstats
    exact (h.streams hmem).sent_eq
  stream_reordered_le stats hstats := by
    obtain ⟨⟨id, s⟩, hmem, rfl⟩ := List.mem_map.mp hstats
    exact (h.streams hmem).packetsReordered_le
  sum_packetsSent := (sum_streamStats List.map_map).trans h.sum_packetsSent
  sum_packetsAcked := (sum_streamStats List.map_map).trans h.sum_packetsAcked
  sum_packetsLost := (sum_streamStats List.map_map).trans h.sum_packetsLost
  sum_packetsReordered := sum_streamStats List.map_map
  sum_bytes := (sum_streamStats List.map_map).trans h.sum_bytes
  lossPct := lossPct_le (by
    show m.totals.packetsLost ≤ m.totals.packetsSent
    rw [h.sent_eq]
    exact Nat.le_add_left _ _)

/-! ## The intervals -/

/-- Each packet was acknowledged or lost. -/
def Totals.Balanced (t : Totals) : Prop :=
  t.packetsSent = t.packetsAcked + t.packetsLost

theorem Totals.Balanced.record {t : Totals} (h : t.Balanced) (event : PacketEvent) :
    (t.record event).Balanced := by
  unfold Totals.Balanced at h ⊢
  unfold Totals.record
  cases event.recvMonoNs <;> dsimp only <;> omega

/-- What was counted since balanced totals is balanced. -/
theorem lossPct_buildInterval {prev totals : Totals} (hprev : prev.Balanced)
    (htotals : totals.Balanced) (hle : Totals.Le prev totals) (idx span : ℕ)
    (latencies jitters : List ℚ) (start now : ℕ) :
    0 ≤ (buildInterval idx span totals prev latencies jitters start now).lossPct ∧
      (buildInterval idx span totals prev latencies jitters start now).lossPct ≤ 100 := by
  refine lossPct_le ?_
  have hacked := hle.packetsAcked
  unfold Totals.Balanced at hprev htotals
  omega

/-- The totals are balanced and so were those at the last tick. -/
structure IntervalsBounded (s : LoopState) : Prop where
  telescopes : Telescopes s
  prev : s.totalsPrev.Balanced
  totals : s.metrics.totals.Balanced
  lossPct : ∀ i ∈ s.intervals, 0 ≤ i.lossPct ∧ i.lossPct ≤ 100

theorem intervalsBounded_loopStep (cfg : LoopConfig) {s : LoopState} (h : IntervalsBounded s)
    (input : LoopInput) : IntervalsBounded (loopStep cfg s input) := by
  have htelescopes := telescopes_loopStep cfg h.telescopes input
  cases input with
  | tick now =>
    by_cases hnow : now < cfg.measurementStart
    · have hsame : onTick cfg s now = s := if_pos hnow
      rw [loopStep, hsame]
      exact h
    · have hstep : onTick cfg s now = _ := if_neg hnow
      have hinterval := lossPct_buildInterval h.prev h.totals h.telescopes.le
      rw [loopStep] at htelescopes ⊢
      refine ⟨htelescopes, ?_, ?_, ?_⟩
      · rw [hstep]
        exact h.totals
      · rw [hstep]
        exact h.totals
      · rw [hstep]
        intro i hi
        rcases List.mem_append.mp hi with hold | hnew
        · exact h.lossPct i hold
        · rw [List.mem_singleton.mp hnew]
          exact hinterval _ _ _ _ _ _
  | event event =>
    rw [loopStep] at htelescopes ⊢
    split_ifs at htelescopes ⊢
    · exact h
    · exact ⟨htelescopes, h.prev, by rw [totals_applyEvent]; exact h.totals.record event, h.lossPct⟩

theorem intervalsBounded_runLoop (cfg : LoopConfig) : ∀ (inputs : List LoopInput) {s : LoopState},
    IntervalsBounded s → IntervalsBounded (runLoop cfg s inputs)
  | [], _, h => h
  | input :: inputs, s, h => by
    rw [runLoop_cons]
    exact intervalsBounded_runLoop cfg inputs (intervalsBounded_loopStep cfg h input)

/-- The accumulators conserve packets and bytes, whatever events are applied, so the
statistics do, and each share of lost packets is one. -/
theorem statistics_conserve (events : List PacketEvent) :
    Conserves events (events.foldl applyEvent {}) ∧
      (∀ elapsedSecs, StatsConserve
        (streamStatsFromMap (events.foldl applyEvent {}).streams elapsedSecs)
        (buildAggregate (events.foldl applyEvent {}).streams (events.foldl applyEvent {}).totals
          elapsedSecs)) ∧
      ∀ cfg inputs,
        StatsConserve (runBenchmark cfg inputs).streams (runBenchmark cfg inputs).aggregate ∧
          ∀ i ∈ (runBenchmark cfg inputs).intervals, 0 ≤ i.lossPct ∧ i.lossPct ≤ 100 := by
  refine ⟨conserves_foldl events, (conserves_foldl events).stats, fun cfg inputs => ⟨?_, ?_⟩⟩
  · obtain ⟨hstreams, haggregate, -⟩ := runBenchmark_eq cfg inputs
    rw [hstreams, haggregate]
    exact (conserves_foldl _).stats _
  · have h0 : IntervalsBounded {} := ⟨⟨rfl, Totals.Le.refl _⟩, rfl, rfl, by simp⟩
    exact (intervalsBounded_runLoop cfg inputs h0).lossPct

/-! ## Interleavings of the streams -/

theorem ofKey_measuredEvents (id : UInt32) (inputs : List LoopInput) :
    KeyedFold.ofKey PacketEvent.streamId id (measuredEvents inputs) =
      (eventsOf id inputs).filter PacketEvent.measured := by
  unfold KeyedFold.ofKey measuredEvents eventsOf
  rw [List.filter_filter, List.filter_filter]
  exact List.filter_congr fun e _ => Bool.and_comm _ _

/-- The histogram counts the events in any order. -/
theorem countBetween_foldl {events events' : List PacketEvent} (h : events.Perm events')
    (lo hi : ℕ) : (events.foldl applyEvent {}).histogram.countBetween lo hi =
      (events'.foldl applyEvent {}).histogram.countBetween lo hi := by
  unfold Histogram.countBetween
  rw [histogram_foldl, histogram_foldl]
  exact (h.flatMap_right _).countP_eq _

theorem buildHistogram_foldl {events events' : List PacketEvent} (h : events.Perm events') :
    buildHistogram (events.foldl applyEvent {}).globalLatencies
        (events.foldl applyEvent {}).histogram =
      buildHistogram (events'.foldl applyEvent {}).globalLatencies
        (events'.foldl applyEvent {}).histogram := by
  have hempty : (events.foldl applyEvent {}).globalLatencies.isEmpty =
      (events'.foldl applyEvent {}).globalLatencies.isEmpty := by
    rw [globalLatencies_foldl, globalLatencies_foldl]
    exact (h.filterMap _).isEmpty_eq
  unfold buildHistogram
  simp only [hempty, countBetween_foldl h]

/-- The totals count the events in any order. -/
theorem totals_foldl_perm {events events' : List PacketEvent} (h : events.Perm events') :
    (events.foldl applyEvent {}).totals = (events'.foldl applyEvent {}).totals := by
  rw [totals_foldl, totals_foldl, h.length_eq, h.countP_eq, h.countP_eq, (h.map _).sum_eq]

/-- The statistics of the streams, the aggregate and the histogram depend on the measured
events of each stream alone : not on how the events of different streams are interleaved, nor
on events that are not measured, nor on ticks. -/
theorem report_interleaving (cfg : LoopConfig) {inputs inputs' : List LoopInput}
    (h : ∀ id, (eventsOf id inputs).filter PacketEvent.measured =
      (eventsOf id inputs').filter PacketEvent.measured) :
    (runBenchmark cfg inputs).streams = (runBenchmark cfg inputs').streams ∧
      (runBenchmark cfg inputs).aggregate = (runBenchmark cfg inputs').aggregate ∧
      (runBenchmark cfg inputs).latencyHistogram =
        (runBenchmark cfg inputs').latencyHistogram := by
  have hofKey : ∀ id, KeyedFold.ofKey PacketEvent.streamId id (measuredEvents inputs) =
      KeyedFold.ofKey PacketEvent.streamId id (measuredEvents inputs') := by
    intro id
    rw [ofKey_measuredEvents, ofKey_measuredEvents, h]
  have hperm := KeyedFold.perm_of_ofKey PacketEvent.streamId hofKey
  have hmap : ((measuredEvents inputs).foldl applyEvent {}).streams.toList =
      ((measuredEvents inputs').foldl applyEvent {}).streams.toList := by
    rw [streams_foldl, streams_foldl]
    exact KeyedFold.toList_fold_congr PacketEvent.streamId _ _ hofKey
  obtain ⟨hstreams, haggregate, hhistogram⟩ := runBenchmark_eq cfg inputs
  obtain ⟨hstreams', haggregate', hhistogram'⟩ := runBenchmark_eq cfg inputs'
  refine ⟨?_, ?_, ?_⟩
  · rw [hstreams, hstreams', streamStatsFromMap, streamStatsFromMap, hmap]
  · rw [haggregate, haggregate']
    unfold buildAggregate
    rw [KeyedFold.values_eq, KeyedFold.values_eq, hmap, totals_foldl_perm hperm]
  · rw [hhistogram, hhistogram', buildHistogram_foldl hperm]

/-- Two streams with their events one after the other, and interleaved with a tick and an
event that is not measured. -/
theorem report_interleaving_two :
    let first : List LoopInput := [.event ⟨0, 1, 64, 0, some 5000, true⟩,
      .event ⟨0, 2, 64, 9000, none, true⟩, .event ⟨1, 1, 64, 1000, some 8000, true⟩]
    let second : List LoopInput := [.event ⟨1, 0, 64, 500, none, false⟩,
      .event ⟨0, 1, 64, 0, some 5000, true⟩, .event ⟨1, 1, 64, 1000, some 8000, true⟩, .tick 8500,
      .event ⟨0, 2, 64, 9000, none, true⟩]
    (runBenchmark ⟨1000000000, 500000000, 0⟩ first).streams =
        (runBenchmark ⟨1000000000, 500000000, 0⟩ second).streams ∧
      (runBenchmark ⟨1000000000, 500000000, 0⟩ first).aggregate =
        (runBenchmark ⟨1000000000, 500000000, 0⟩ second).aggregate ∧
      (runBenchmark ⟨1000000000, 500000000, 0⟩ first).latencyHistogram =
        (runBenchmark ⟨1000000000, 500000000, 0⟩ second).latencyHistogram := by
  refine report_interleaving _ fun id => ?_
  by_cases h0 : id = 0
  · subst h0
    decide
  · by_cases h1 : id = 1
    · subst h1
      decide
    · simp [eventsOf, LoopInput.event?, Ne.symm h0, Ne.symm h1]

end Ipfusch
