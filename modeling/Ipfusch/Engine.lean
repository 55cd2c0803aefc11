import Ipfusch.Stream
import Mathlib.Algebra.Order.Field.Rat
import Mathlib.Algebra.Order.Floor.Semiring
import Mathlib.Data.Rat.Floor
import Mathlib.Data.List.Sort

/-!
# The benchmark engine

The statistics of a run. `applyEvent` adds a packet event to the accumulators,
`buildInterval` makes the snapshot of an interval, and `runLoop` is the loop of
`run_benchmark` over the events and interval ticks in the order `select!` takes them.
`runBenchmark` is the report it makes when the event channel closes.

Durations and instants are in nanoseconds, and `f64` values are exact rationals. Counters
are natural numbers : no count or sum of bytes reaches `2 ^ 64`.
-/

namespace Ipfusch

/-! ## Order statistics -/

/-- `quantile` : the sample whose index is `(n - 1) * q`, rounded half up. -/
def quantile {α : Type*} [LinearOrder α] [Zero α] (values : List α) (q : ℚ) : α :=
  if values.isEmpty then 0
  else
    let sorted := values.mergeSort (· ≤ ·)
    let idx := ⌊((sorted.length - 1 : ℕ) : ℚ) * max 0 (min q 1) + 1 / 2⌋₊
    sorted.getD idx 0

/-- `mean` -/
def mean (values : List ℚ) : ℚ :=
  if values.isEmpty then 0 else values.sum / values.length

/-! ## The latency histogram -/

/-- `Histogram::<u64>` with bounds 1 and 120 000 000 and 3 significant digits : the values
that were recorded. -/
structure Histogram where
  values : List ℕ

/-- `record` : a value beyond the buckets that cover the bounds is an error, which the
caller ignores. -/
def Histogram.record (h : Histogram) (v : ℕ) : Histogram :=
  if v < 2 ^ 27 then ⟨h.values ++ [v]⟩ else h

/-- The width of the bucket of a value : one below `2048`, and a power of two that leaves 11
significant bits above. -/
def Histogram.width (v : ℕ) : ℕ :=
  2 ^ (v.log2 - 10)

/-- `count_between` : the values in the buckets from that of `lo` to that of `hi`. -/
def Histogram.countBetween (h : Histogram) (lo hi : ℕ) : ℕ :=
  h.values.countP fun v => lo / width lo * width lo ≤ v ∧ v < (hi / width hi + 1) * width hi

/-- `LatencyBucket` -/
structure LatencyBucket where
  leMs : ℕ
  count : ℕ
  deriving DecidableEq, Repr

/-- `build_histogram` -/
def buildHistogram (latenciesMs : List ℚ) (histogram : Histogram) : List LatencyBucket :=
  if latenciesMs.isEmpty then []
  else [1, 2, 5, 10, 20, 50, 100, 200, 500, 1000, 2000, 5000].map fun upperMs =>
    ⟨upperMs, histogram.countBetween 1 (upperMs * 1000)⟩

/-! ## Accumulators -/

/-- `StreamAccumulator` -/
structure StreamAccumulator where
  packetsSent : ℕ := 0
  packetsAcked : ℕ := 0
  packetsLost : ℕ := 0
  packetsReordered : ℕ := 0
  bytes : ℕ := 0
  lastSeq : ℕ := 0
  latenciesMs : List ℚ := []
  jittersMs : List ℚ := []
  lastLatencyMs : Option ℚ := none
  deriving DecidableEq

/-- `Totals` -/
@[ext] structure Totals where
  packetsSent : ℕ := 0
  packetsAcked : ℕ := 0
  packetsLost : ℕ := 0
  bytes : ℕ := 0
  deriving DecidableEq

/-- What `apply_event` updates. -/
structure Metrics where
  streams : Std.TreeMap UInt32 StreamAccumulator := ∅
  totals : Totals := {}
  intervalLatencies : List ℚ := []
  intervalJitters : List ℚ := []
  globalLatencies : List ℚ := []
  histogram : Histogram := ⟨[]⟩

/-- The latency of an acknowledged packet, in milliseconds. -/
def latencyMs (sendMonoNs recvNs : ℕ) : ℚ :=
  ((recvNs - sendMonoNs : ℕ) : ℚ) / 1000000

/-- The jitter of a latency after the last one of its stream, if there is one. -/
def StreamAccumulator.jitter (s : StreamAccumulator) (latencyMs : ℚ) : List ℚ :=
  match s.lastLatencyMs with
  | some prev => [|latencyMs - prev|]
  | none => []

/-- What `apply_event` does to the accumulator of the event's stream. -/
def StreamAccumulator.record (s : StreamAccumulator) (event : PacketEvent) : StreamAccumulator :=
  let s := { s with packetsSent := s.packetsSent + 1, bytes := s.bytes + event.bytes }
  match event.recvMonoNs with
  | some recvNs =>
    let latencyMs := latencyMs event.sendMonoNs recvNs
    { s with
      packetsAcked := s.packetsAcked + 1
      latenciesMs := s.latenciesMs ++ [latencyMs]
      jittersMs := s.jittersMs ++ s.jitter latencyMs
      lastLatencyMs := some latencyMs
      packetsReordered := if event.seq < s.lastSeq then s.packetsReordered + 1
        else s.packetsReordered
      lastSeq := max s.lastSeq event.seq }
  | none => { s with packetsLost := s.packetsLost + 1 }

/-- What `apply_event` does to the totals. -/
def Totals.record (t : Totals) (event : PacketEvent) : Totals :=
  let t := { t with packetsSent := t.packetsSent + 1, bytes := t.bytes + event.bytes }
  match event.recvMonoNs with
  | some _ => { t with packetsAcked := t.packetsAcked + 1 }
  | none => { t with packetsLost := t.packetsLost + 1 }

/-- `apply_event` -/
def applyEvent (m : Metrics) (event : PacketEvent) : Metrics :=
  let stream := m.streams.getD event.streamId {}
  let m := { m with
    streams := m.streams.insert event.streamId (stream.record event)
    totals := m.totals.record event }
  match event.recvMonoNs with
  | some recvNs =>
    let latencyMs := latencyMs event.sendMonoNs recvNs
    { m with
      intervalLatencies := m.intervalLatencies ++ [latencyMs]
      intervalJitters := m.intervalJitters ++ stream.jitter latencyMs
      globalLatencies := m.globalLatencies ++ [latencyMs]
      histogram := m.histogram.record ⌊max (latencyMs * 1000) 1⌋₊ }
  | none => m

/-! ## Snapshots and reports -/

/-- `IntervalStats` -/
structure IntervalStats where
  index : ℕ
  startMs : ℕ
  endMs : ℕ
  bytes : ℕ
  packetsSent : ℕ
  packetsAcked : ℕ
  packetsLost : ℕ
  throughputBps : ℚ
  packetRatePps : ℚ
  lossPct : ℚ
  jitterMs : ℚ
  p50Ms : ℚ
  p95Ms : ℚ
  p99Ms : ℚ

/-- `StreamStats` -/
structure StreamStats where
  streamId : UInt32
  packetsSent : ℕ
  packetsAcked : ℕ
  packetsLost : ℕ
  packetsReordered : ℕ
  bytes : ℕ
  throughputBps : ℚ
  jitterMs : ℚ
  p50Ms : ℚ
  p95Ms : ℚ
  p99Ms : ℚ

/-- `AggregateStats` -/
structure AggregateStats where
  packetsSent : ℕ
  packetsAcked : ℕ
  packetsLost : ℕ
  packetsReordered : ℕ
  bytes : ℕ
  throughputBps : ℚ
  packetRatePps : ℚ
  lossPct : ℚ
  jitterMs : ℚ
  p50Ms : ℚ
  p95Ms : ℚ
  p99Ms : ℚ

/-- `as_secs_f64().max(0.000_001)` of a duration. -/
def durationSecs (ns : ℕ) : ℚ :=
  max ((ns : ℚ) / 1000000000) (1 / 1000000)

/-- The share of lost packets, in percent. -/
def lossPct (packetsLost packetsSent : ℕ) : ℚ :=
  if packetsSent = 0 then 0 else (packetsLost : ℚ) * 100 / packetsSent

/-- `build_interval` -/
def buildInterval (idx interval : ℕ) (totals prev : Totals)
    (intervalLatencies intervalJitters : List ℚ) (measurementStart now : ℕ) : IntervalStats :=
  let bytes := totals.bytes - prev.bytes
  let packetsSent := totals.packetsSent - prev.packetsSent
  let packetsAcked := totals.packetsAcked - prev.packetsAcked
  let packetsLost := totals.packetsLost - prev.packetsLost
  let secs := durationSecs interval
  { index := idx
    startMs := (now - measurementStart - interval) / 1000000
    endMs := (now - measurementStart) / 1000000
    bytes := bytes
    packetsSent := packetsSent
    packetsAcked := packetsAcked
    packetsLost := packetsLost
    throughputBps := (bytes : ℚ) * 8 / secs
    packetRatePps := packetsSent / secs
    lossPct := lossPct packetsLost packetsSent
    jitterMs := mean intervalJitters
    p50Ms := quantile intervalLatencies (50 / 100)
    p95Ms := quantile intervalLatencies (95 / 100)
    p99Ms := quantile intervalLatencies (99 / 100) }

/-- `stream_stats_from_map` -/
def streamStatsFromMap (map : Std.TreeMap UInt32 StreamAccumulator) (elapsedSecs : ℚ) :
    List StreamStats :=
  map.toList.map fun (streamId, s) => {
    streamId := streamId
    packetsSent := s.packetsSent
    packetsAcked := s.packetsAcked
    packetsLost := s.packetsLost
    packetsReordered := s.packetsReordered
    bytes := s.bytes
    throughputBps := (s.bytes : ℚ) * 8 / elapsedSecs
    jitterMs := mean s.jittersMs
    p50Ms := quantile s.latenciesMs (50 / 100)
    p95Ms := quantile s.latenciesMs (95 / 100)
    p99Ms := quantile s.latenciesMs (99 / 100) }

/-- `build_aggregate` -/
def buildAggregate (map : Std.TreeMap UInt32 StreamAccumulator) (totals : Totals)
    (elapsedSecs : ℚ) : AggregateStats :=
  let allLatencies := map.values.flatMap fun s => s.latenciesMs
  let allJitters := map.values.flatMap fun s => s.jittersMs
  let packetsReordered := (map.values.map fun s => s.packetsReordered).sum
  { packetsSent := totals.packetsSent
    packetsAcked := totals.packetsAcked
    packetsLost := totals.packetsLost
    packetsReordered := packetsReordered
    bytes := totals.bytes
    throughputBps := (totals.bytes : ℚ) * 8 / elapsedSecs
    packetRatePps := totals.packetsSent / elapsedSecs
    lossPct := lossPct totals.packetsLost totals.packetsSent
    jitterMs := mean allJitters
    p50Ms := quantile allLatencies (50 / 100)
    p95Ms := quantile allLatencies (95 / 100)
    p99Ms := quantile allLatencies (99 / 100) }

/-! ## The loop -/

/-- The settings of the loop. -/
structure LoopConfig where
  duration : ℕ
  interval : ℕ
  measurementStart : ℕ

/-- The variables of the loop. -/
structure LoopState where
  metrics : Metrics := {}
  totalsPrev : Totals := {}
  intervals : List IntervalStats := []
  intervalIdx : ℕ := 0
  lastIntervalTick : Option ℕ := none

/-- What `select!` takes : an event, or a tick of the interval timer with the clock read
after it. -/
inductive LoopInput
  | event (event : PacketEvent)
  | tick (now : ℕ)
  deriving DecidableEq, Repr

/-- A tick of the interval timer. -/
def onTick (cfg : LoopConfig) (s : LoopState) (now : ℕ) : LoopState :=
  if now < cfg.measurementStart then s
  else
    let intervalSpan := match s.lastIntervalTick with
      | some lastTick => now - lastTick
      | none => now - cfg.measurementStart
    let effectiveSpan := if intervalSpan = 0 then cfg.interval else intervalSpan
    let interval := buildInterval s.intervalIdx effectiveSpan s.metrics.totals s.totalsPrev
      s.metrics.intervalLatencies s.metrics.intervalJitters cfg.measurementStart now
    { metrics := { s.metrics with intervalLatencies := [], intervalJitters := [] }
      totalsPrev := s.metrics.totals
      lastIntervalTick := some now
      intervals := s.intervals ++ [interval]
      intervalIdx := s.intervalIdx + 1 }

/-- One turn of the loop. -/
def loopStep (cfg : LoopConfig) (s : LoopState) : LoopInput → LoopState
  | .event event =>
    if !event.measured then s else { s with metrics := applyEvent s.metrics event }
  | .tick now => onTick cfg s now

/-- The loop, until the event channel closes. -/
def runLoop (cfg : LoopConfig) (s : LoopState) (inputs : List LoopInput) : LoopState :=
  inputs.foldl (loopStep cfg) s

/-- What a run reports. -/
structure RunReport where
  intervals : List IntervalStats
  streams : List StreamStats
  aggregate : AggregateStats
  latencyHistogram : List LatencyBucket

/-- The report of `run_benchmark`, if all streams end well. -/
def runBenchmark (cfg : LoopConfig) (inputs : List LoopInput) : RunReport :=
  let s := runLoop cfg {} inputs
  let elapsedSecs := durationSecs cfg.duration
  { intervals := s.intervals
    streams := streamStatsFromMap s.metrics.streams elapsedSecs
    aggregate := buildAggregate s.metrics.streams s.metrics.totals elapsedSecs
    latencyHistogram := buildHistogram s.metrics.globalLatencies s.metrics.histogram }

end Ipfusch
