import Ipfusch.Statistics

/-!
# The configuration of a run

What `run_benchmark` makes of its configuration : the rate of each stream, what each stream is
to do, and the settings of the loop.

The report has an entry for a stream only if the stream reported a packet after the warm-up.
`streamsListed_iff` : all configured streams are in the report exactly if each did.
-/

namespace Ipfusch

/-! ## Rates -/

/-- `RateMode` -/
inductive RateMode
  | auto
  | bps (v : UInt64)
  deriving DecidableEq, Repr

/-- `Recommendation` -/
structure Recommendation where
  label : String
  score : ℚ
  reason : String
  deriving DecidableEq

/-- `resolve_rate` -/
def resolveRate (rate : RateMode) (transport : Transport) :
    Option UInt64 × List Recommendation :=
  match rate with
  | .bps v => (some v, [])
  | .auto =>
    match transport with
    | .tcp =>
      let selected : UInt64 := 80000000000
      (some selected, [{
        label := "auto-rate-selected"
        score := (selected.toNat : ℚ) / 1000000000
        reason := "auto tuner selected high-throughput paced tcp mode" }])
    | .udp =>
      let selected : UInt64 := 2000000000
      (some selected, [{
        label := "auto-rate-selected"
        score := (selected.toNat : ℚ) / 1000000000
        reason := "auto tuner selected " ++ toString selected ++ " bps baseline for " ++
          transport.toString }])
    | .quic =>
      let selected : UInt64 := 1000000000
      (some selected, [{
        label := "auto-rate-selected"
        score := (selected.toNat : ℚ) / 1000000000
        reason := "auto tuner selected " ++ toString selected ++ " bps baseline for " ++
          transport.toString }])

/-- `per_stream_rate` : the rate is split over the streams. (No stream is a division by zero,
which panics.) -/
def perStreamRate (resolvedRate : Option UInt64) (streams : UInt16) : Option UInt64 :=
  resolvedRate.map fun v => max (v / streams.toUInt64) 1

/-! ## The configuration -/

/-- `RunConfig` -/
structure RunConfig where
  transport : Transport
  streams : UInt16
  duration : ℕ
  warmup : ℕ
  payloadBytes : UInt64
  rate : RateMode
  token : Option String
  interval : ℕ

namespace RunConfig

variable (cfg : RunConfig)

/-- What the streams are to do. -/
def streamSpecs (sessionId : UInt64) : List StreamRunSpec :=
  let resolvedRate := (resolveRate cfg.rate cfg.transport).1
  let perStreamRate := perStreamRate resolvedRate cfg.streams
  (List.range cfg.streams.toNat).map fun streamId => {
    sessionId := sessionId
    streamId := UInt32.ofNat streamId
    transport := cfg.transport
    duration := cfg.duration
    warmup := cfg.warmup
    payloadBytes := cfg.payloadBytes
    rateBps := perStreamRate
    token := cfg.token
    timeout := 750000000 }

/-- The settings of the loop, for a run that started at some time. -/
def loopConfig (started : ℕ) : LoopConfig where
  duration := cfg.duration
  interval := cfg.interval
  measurementStart := started + cfg.warmup

/-- The numbers of the configured streams. -/
def streamIds : List UInt32 :=
  (List.range cfg.streams.toNat).map UInt32.ofNat

theorem map_streamId_streamSpecs (sessionId : UInt64) :
    (cfg.streamSpecs sessionId).map StreamRunSpec.streamId = cfg.streamIds := by
  unfold streamSpecs streamIds
  rw [List.map_map]
  rfl

/-- The numbers increase. -/
theorem pairwise_streamIds : cfg.streamIds.Pairwise fun k k' => compare k k' = .lt := by
  unfold streamIds
  refine List.pairwise_map.mpr (List.pairwise_lt_range.imp_of_mem fun {i j} _ hj hlt => ?_)
  have hstreams : j < 2 ^ 16 := (List.mem_range.mp hj).trans cfg.streams.toNat_lt
  rw [Std.compare_eq_lt, UInt32.lt_iff_toNat_lt, UInt32.toNat_ofNat_of_lt' (by
    rw [UInt32.size]
    omega), UInt32.toNat_ofNat_of_lt' (by
    rw [UInt32.size]
    omega)]
  exact hlt

end RunConfig

/-! ## The streams in the report -/

/-- The report lists the configured streams, in increasing order. -/
def StreamsListed (cfg : RunConfig) (started : ℕ) (inputs : List LoopInput) : Prop :=
  (runBenchmark (cfg.loopConfig started) inputs).streams.map StreamStats.streamId = cfg.streamIds

/-- The events come from the streams of the run, each of which reports its own number. -/
def FromStreams (cfg : RunConfig) (inputs : List LoopInput) : Prop :=
  ∀ event ∈ inputs.filterMap LoopInput.event?, event.streamId ∈ cfg.streamIds

/-- The streams in the report, from the accumulators. -/
theorem map_streamId_streams (cfg : LoopConfig) (inputs : List LoopInput) :
    (runBenchmark cfg inputs).streams.map StreamStats.streamId =
      (KeyedFold.fold PacketEvent.streamId {} StreamAccumulator.record
        (measuredEvents inputs)).keys := by
  rw [(runBenchmark_eq cfg inputs).1, streams_foldl, streamStatsFromMap, List.map_map,
    ← Std.TreeMap.map_fst_toList_eq_keys]
  rfl

/-- All configured streams are in the report exactly if each of them reported a measured
packet. -/
theorem streamsListed_iff {cfg : RunConfig} {inputs : List LoopInput} (started : ℕ)
    (h : FromStreams cfg inputs) : StreamsListed cfg started inputs ↔
      ∀ id ∈ cfg.streamIds, ∃ event ∈ eventsOf id inputs, event.measured = true := by
  have hmeasured : ∀ id, (∃ event ∈ measuredEvents inputs, event.streamId = id) ↔
      ∃ event ∈ eventsOf id inputs, event.measured = true := by
    intro id
    simp only [measuredEvents, eventsOf, List.mem_filter, decide_eq_true_eq]
    constructor
    · rintro ⟨event, ⟨hmem, hm⟩, hid⟩
      exact ⟨event, ⟨hmem, hid⟩, hm⟩
    · rintro ⟨event, ⟨hmem, hid⟩, hm⟩
      exact ⟨event, ⟨hmem, hm⟩, hid⟩
  unfold StreamsListed
  rw [map_streamId_streams]
  constructor
  · intro hkeys id hid
    rw [← hkeys, KeyedFold.mem_keys_fold] at hid
    exact (hmeasured id).mp hid
  · intro hall
    refine KeyedFold.keys_fold_eq _ _ _ cfg.pairwise_streamIds fun id => ⟨fun hid => ?_, ?_⟩
    · exact (hmeasured id).mpr (hall id hid)
    · rintro ⟨event, hmem, rfl⟩
      exact h event (List.mem_filter.mp hmem).1

/-- Two streams. The first packet of the second one is lost : its `recv` waits longer than
warm-up and measurement together, and no other packet is sent. -/
def lostWarmup : RunConfig where
  transport := .udp
  streams := 2
  duration := 500000000
  warmup := 100000000
  payloadBytes := 1200
  rate := .bps 64000
  token := none
  interval := 250000000

theorem not_streamsListed_lostWarmup : ¬StreamsListed lostWarmup 0
    [.event ⟨0, 1, 1200, 1000, some 90000, false⟩, .tick 250000000,
      .event ⟨0, 2, 1200, 300000000, some 300090000, true⟩, .tick 500000000,
      .event ⟨0, 3, 1200, 600000000, some 600090000, true⟩,
      .event ⟨1, 1, 1200, 2000, none, false⟩] := by
  unfold StreamsListed
  rw [map_streamId_streams]
  decide

theorem streamsListed_iff_lostWarmup :
    StreamsListed lostWarmup 0 [.event ⟨1, 1, 1200, 2000, none, false⟩] ↔
      ∀ id ∈ lostWarmup.streamIds, ∃ event ∈ eventsOf id [.event ⟨1, 1, 1200, 2000, none, false⟩],
        event.measured = true :=
  streamsListed_iff 0 (by unfold FromStreams; decide)

end Ipfusch
