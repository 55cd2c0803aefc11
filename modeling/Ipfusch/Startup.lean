import Ipfusch.Benchmark
import Ipfusch.Protocol

/-!
# The start of a run

`run_benchmark` splits the rate over the streams, computes when the measurement starts and
makes the interval timer. Each stream, once it is through its handshake, allocates its frame
and computes when its warm-up, its measurement and (TCP) its drain are over. Any of these
computations can panic.

`startsCleanly_iff` : none of them does exactly if there is a stream, the interval is not
zero, and frames and instants stay in range. `parse_streams_list` of a sweep rejects a stream
count of zero, but nothing rejects it (or an interval of zero) for a run.
-/

namespace Ipfusch

/-! ## Computations that panic -/

/-- Why a computation panics. -/
inductive Panic
  | divideByZero
  | instantOverflow
  | zeroPeriod
  | addOverflow
  | capacityOverflow
  deriving DecidableEq, Repr

/-- `v / n` -/
def checkedDiv (v n : UInt64) : Except Panic UInt64 :=
  if n = 0 then .error .divideByZero else .ok (v / n)

/-- `Instant + Duration` : `instantLimit` is the first instant that the platform cannot
represent. -/
def addDuration (instantLimit instant duration : ℕ) : Except Panic ℕ :=
  if instant + duration < instantLimit then .ok (instant + duration)
  else .error .instantOverflow

/-- `tokio::time::interval` : the period of the timer. -/
def timerInterval (period : ℕ) : Except Panic ℕ :=
  if period = 0 then .error .zeroPeriod else .ok period

/-- `a + b` for `usize`. -/
def addUsize (a b : UInt64) : Except Panic UInt64 :=
  if a.toNat + b.toNat < 2 ^ 64 then .ok (a + b) else .error .addOverflow

/-- `vec![0u8; n]` : a capacity is at most `isize::MAX`. -/
def zeroedVec (n : UInt64) : Except Panic UInt64 :=
  if n.toNat < 2 ^ 63 then .ok n else .error .capacityOverflow

theorem bind_eq_ok {ε α β : Type} {x : Except ε α} {f : α → Except ε β} {b : β} :
    x >>= f = .ok b ↔ ∃ a, x = .ok a ∧ f a = .ok b := by
  cases x <;> simp [bind, Except.bind]

theorem addDuration_eq_ok {instantLimit instant duration t : ℕ} :
    addDuration instantLimit instant duration = .ok t ↔
      instant + duration < instantLimit ∧ instant + duration = t := by
  unfold addDuration
  split_ifs with h <;> simp [h]

theorem timerInterval_eq_ok {period p : ℕ} :
    timerInterval period = .ok p ↔ period ≠ 0 ∧ period = p := by
  unfold timerInterval
  split_ifs with h <;> simp [h]

/-! ## What is computed before the loops -/

/-- `run_benchmark`, up to the spawned streams. -/
def spawnStreams (cfg : RunConfig) (sessionId : UInt64) : Except Panic (List StreamRunSpec) := do
  let resolvedRate := (resolveRate cfg.rate cfg.transport).1
  let perStreamRate ← resolvedRate.mapM fun v => do
    return max (← checkedDiv v cfg.streams.toUInt64) 1
  return (List.range cfg.streams.toNat).map fun streamId => {
    sessionId := sessionId
    streamId := UInt32.ofNat streamId
    transport := cfg.transport
    duration := cfg.duration
    warmup := cfg.warmup
    payloadBytes := cfg.payloadBytes
    rateBps := perStreamRate
    token := cfg.token
    timeout := 750000000 }

/-- `run_benchmark`, from the spawned streams to the loop. -/
def setUpLoop (instantLimit : ℕ) (cfg : RunConfig) (started : ℕ) : Except Panic LoopConfig := do
  let measurementStart ← addDuration instantLimit started cfg.warmup
  let interval ← timerInterval cfg.interval
  return { duration := cfg.duration, interval := interval, measurementStart := measurementStart }

/-- What a stream computes before its loop. Only TCP drains. -/
structure StreamSetup where
  frameLen : UInt64
  pacing : Option ℕ
  warmupUntil : ℕ
  endAt : ℕ
  drainDeadline : Option ℕ

/-- `drain_deadline` -/
def drainDeadline (instantLimit : ℕ) (spec : StreamRunSpec) (endAt : ℕ) :
    Except Panic (Option ℕ) :=
  match spec.transport with
  | .tcp => do
    let deadline ← addDuration instantLimit endAt spec.timeout
    return some deadline
  | .udp => return none
  | .quic => return none

/-- `run_stream_tcp`, `run_stream_udp` and `run_stream_quic`, from the end of the handshake
to the loop. -/
def setUpStream (instantLimit : ℕ) (spec : StreamRunSpec) (start : ℕ) :
    Except Panic StreamSetup := do
  let frameLen ← addUsize (UInt64.ofNat dataHeaderSize) spec.payloadBytes
  let frameLen ← zeroedVec frameLen
  let warmupUntil ← addDuration instantLimit start spec.warmup
  let endAt ← addDuration instantLimit warmupUntil spec.duration
  let drainDeadline ← drainDeadline instantLimit spec endAt
  return {
    frameLen := frameLen
    pacing := pacingDelay spec.payloadBytes spec.rateBps
    warmupUntil := warmupUntil
    endAt := endAt
    drainDeadline := drainDeadline }

/-! ## When they do not panic -/

theorem resolveRate_eq_some (rate : RateMode) (transport : Transport) :
    ∃ v, (resolveRate rate transport).1 = some v := by
  cases rate with
  | bps v => exact ⟨v, rfl⟩
  | auto => cases transport <;> exact ⟨_, rfl⟩

/-- The rate is divided by the number of streams, whatever it is. -/
theorem spawnStreams_eq_ok {cfg : RunConfig} {sessionId : UInt64} {specs : List StreamRunSpec} :
    spawnStreams cfg sessionId = .ok specs ↔
      cfg.streams ≠ 0 ∧ cfg.streamSpecs sessionId = specs := by
  obtain ⟨v, hv⟩ := resolveRate_eq_some cfg.rate cfg.transport
  have hzero : cfg.streams.toUInt64 = 0 ↔ cfg.streams = 0 := by
    rw [← UInt64.toNat_inj, ← UInt16.toNat_inj, UInt16.toNat_toUInt64]
    rfl
  unfold spawnStreams RunConfig.streamSpecs perStreamRate checkedDiv
  by_cases h : cfg.streams = 0
  · simp [hv, h, bind, Except.bind]
  · simp [hv, hzero, h, bind, Except.bind, pure, Except.pure]

theorem setUpLoop_eq_ok {instantLimit : ℕ} {cfg : RunConfig} {started : ℕ} {loop : LoopConfig} :
    setUpLoop instantLimit cfg started = .ok loop ↔
      started + cfg.warmup < instantLimit ∧ cfg.interval ≠ 0 ∧ cfg.loopConfig started = loop := by
  unfold setUpLoop RunConfig.loopConfig
  simp only [bind_eq_ok, addDuration_eq_ok, timerInterval_eq_ok, pure, Except.pure,
    Except.ok.injEq]
  constructor
  · rintro ⟨_, ⟨h1, rfl⟩, _, ⟨h2, rfl⟩, rfl⟩
    exact ⟨h1, h2, rfl⟩
  · rintro ⟨h1, h2, rfl⟩
    exact ⟨_, ⟨h1, rfl⟩, _, ⟨h2, rfl⟩, rfl⟩

/-- A frame is a header and a payload, and a `Vec` holds at most `isize::MAX` bytes. -/
theorem exists_frame {payloadBytes : UInt64} :
    (∃ a, addUsize (UInt64.ofNat dataHeaderSize) payloadBytes = .ok a ∧ ∃ b, zeroedVec a = .ok b) ↔
      dataHeaderSize + payloadBytes.toNat < 2 ^ 63 := by
  have hheader : (UInt64.ofNat dataHeaderSize).toNat = dataHeaderSize := rfl
  unfold addUsize zeroedVec
  rw [hheader]
  split_ifs with hadd
  · have hsum : (UInt64.ofNat dataHeaderSize + payloadBytes).toNat =
        dataHeaderSize + payloadBytes.toNat := by
      rw [UInt64.toNat_add, hheader, Nat.mod_eq_of_lt hadd]
    simp only [Except.ok.injEq, exists_eq_left', hsum]
    split_ifs with hcapacity <;> simpa using hcapacity
  · simp only [false_and, exists_false, false_iff]
    omega

/-- How long a stream of a transport drains. -/
def Transport.drain (timeout : ℕ) : Transport → ℕ
  | .tcp => timeout
  | .udp => 0
  | .quic => 0

theorem exists_drainDeadline {instantLimit : ℕ} {spec : StreamRunSpec} {endAt : ℕ}
    (h : endAt < instantLimit) : (∃ t, drainDeadline instantLimit spec endAt = .ok t) ↔
      endAt + spec.transport.drain spec.timeout < instantLimit := by
  unfold drainDeadline Transport.drain
  cases spec.transport with
  | tcp => simp [bind_eq_ok, addDuration_eq_ok, pure, Except.pure]
  | udp => simpa [pure, Except.pure] using h
  | quic => simpa [pure, Except.pure] using h

/-- A frame that can be allocated, and a last instant that can be represented. -/
theorem exists_setUpStream {instantLimit : ℕ} {spec : StreamRunSpec} {start : ℕ} :
    (∃ setup, setUpStream instantLimit spec start = .ok setup) ↔
      dataHeaderSize + spec.payloadBytes.toNat < 2 ^ 63 ∧
        start + spec.warmup + spec.duration + spec.transport.drain spec.timeout < instantLimit := by
  rw [← exists_frame]
  simp only [setUpStream, bind_eq_ok, addDuration_eq_ok, pure, Except.pure, Except.ok.injEq]
  constructor
  · rintro ⟨_, frameLen, hadd, vec, hvec, _, ⟨-, rfl⟩, _, ⟨hend, rfl⟩, drain, hdrain, -⟩
    exact ⟨⟨frameLen, hadd, vec, hvec⟩, (exists_drainDeadline hend).mp ⟨drain, hdrain⟩⟩
  · rintro ⟨⟨frameLen, hadd, vec, hvec⟩, hlast⟩
    have hend : start + spec.warmup + spec.duration < instantLimit := by omega
    have hwarmup : start + spec.warmup < instantLimit := by omega
    obtain ⟨drain, hdrain⟩ := (exists_drainDeadline hend).mpr hlast
    exact ⟨_, frameLen, hadd, vec, hvec, _, ⟨hwarmup, rfl⟩, _, ⟨hend, rfl⟩, drain, hdrain, rfl⟩

/-! ## The start -/

/-- The clock readings of a start : those of the run, and of each stream that gets through its
handshake. -/
structure StartClock where
  instantLimit : ℕ
  started : ℕ
  streamStart : UInt32 → Option ℕ

/-- No computation of the run and of its streams panics, up to their loops. -/
def StartsCleanly (clock : StartClock) (cfg : RunConfig) (sessionId : UInt64) : Prop :=
  ∃ specs, spawnStreams cfg sessionId = .ok specs ∧
    (∃ loop, setUpLoop clock.instantLimit cfg clock.started = .ok loop) ∧
    ∀ spec ∈ specs, ∀ start ∈ clock.streamStart spec.streamId,
      ∃ setup, setUpStream clock.instantLimit spec start = .ok setup

/-- What a run has to be given. -/
structure Startable (clock : StartClock) (cfg : RunConfig) : Prop where
  streams : cfg.streams ≠ 0
  interval : cfg.interval ≠ 0
  warmup : clock.started + cfg.warmup < clock.instantLimit
  frame : ∀ id ∈ cfg.streamIds, clock.streamStart id ≠ none →
    dataHeaderSize + cfg.payloadBytes.toNat < 2 ^ 63
  deadline : ∀ id ∈ cfg.streamIds, ∀ start ∈ clock.streamStart id,
    start + cfg.warmup + cfg.duration + cfg.transport.drain 750000000 < clock.instantLimit

/-- The streams of a run do what the run is configured for. -/
theorem mem_streamSpecs {cfg : RunConfig} {sessionId : UInt64} {spec : StreamRunSpec}
    (h : spec ∈ cfg.streamSpecs sessionId) : spec.streamId ∈ cfg.streamIds ∧
      spec.transport = cfg.transport ∧ spec.duration = cfg.duration ∧ spec.warmup = cfg.warmup ∧
      spec.payloadBytes = cfg.payloadBytes ∧ spec.timeout = 750000000 := by
  obtain ⟨streamId, hmem, rfl⟩ := List.mem_map.mp h
  exact ⟨List.mem_map_of_mem hmem, rfl, rfl, rfl, rfl, rfl⟩

/-- Nothing panics exactly if the configuration has a stream and an interval, and frames and
instants stay in range. -/
theorem startsCleanly_iff (clock : StartClock) (cfg : RunConfig) (sessionId : UInt64) :
    StartsCleanly clock cfg sessionId ↔ Startable clock cfg := by
  unfold StartsCleanly
  simp only [spawnStreams_eq_ok, setUpLoop_eq_ok, exists_setUpStream]
  constructor
  · rintro ⟨specs, ⟨hstreams, rfl⟩, ⟨loop, hwarmup, hinterval, -⟩, hspecs⟩
    have hid : ∀ id ∈ cfg.streamIds, ∃ spec ∈ cfg.streamSpecs sessionId, spec.streamId = id := by
      intro id hid
      rw [← cfg.map_streamId_streamSpecs sessionId] at hid
      exact List.mem_map.mp hid
    refine ⟨hstreams, hinterval, hwarmup, fun id hmem hstart => ?_, fun id hmem start hstart => ?_⟩
    · obtain ⟨start, hstart⟩ := Option.ne_none_iff_exists'.mp hstart
      obtain ⟨spec, hspec, rfl⟩ := hid id hmem
      obtain ⟨-, -, -, -, hpayload, -⟩ := mem_streamSpecs hspec
      rw [← hpayload]
      exact (hspecs spec hspec start hstart).1
    · obtain ⟨spec, hspec, rfl⟩ := hid id hmem
      obtain ⟨-, htransport, hduration, hwarmup, -, htimeout⟩ := mem_streamSpecs hspec
      rw [← htransport, ← hduration, ← hwarmup, ← htimeout]
      exact (hspecs spec hspec start hstart).2
  · rintro ⟨hstreams, hinterval, hwarmup, hframe, hdeadline⟩
    refine ⟨_, ⟨hstreams, rfl⟩, ⟨_, hwarmup, hinterval, rfl⟩, fun spec hspec start hstart => ?_⟩
    obtain ⟨hid, htransport, hduration, hwarmup, hpayload, htimeout⟩ := mem_streamSpecs hspec
    rw [htransport, hduration, hwarmup, hpayload, htimeout]
    exact ⟨hframe _ hid (Option.ne_none_iff_exists'.mpr ⟨start, hstart⟩), hdeadline _ hid _ hstart⟩

/-- `--streams 0`, with all else as by default : the rate is divided by zero. -/
def noStreams : RunConfig where
  transport := .tcp
  streams := 0
  duration := 10000000000
  warmup := 2000000000
  payloadBytes := 262144
  rate := .auto
  token := none
  interval := 100000000

theorem not_startsCleanly_noStreams :
    ¬StartsCleanly ⟨2 ^ 63 * 1000000000, 5000000000, fun _ => none⟩ noStreams 7 := by
  rintro ⟨specs, hspecs, -⟩
  exact (spawnStreams_eq_ok.mp hspecs).1 rfl

end Ipfusch
