import Ipfusch.Statistics
import Mathlib.Data.List.DropRight

/-!
# The windows of the intervals

An interval is made at each tick from the start of the measurement on. Its window are the
inputs since the tick before that made one. The loop keeps what is in the window in three
ways : the totals against a copy of them, the samples that are cleared, and the last tick.

`tracks_runLoop` : all of these describe the window, at any point of a run. So each interval
describes exactly its own window (`intervals_windows`), and, if the clock of the ticks
increases, starts where the one before it ends.
-/

namespace Ipfusch

/-! ## Windows -/

/-- A tick that makes an interval. -/
def LoopInput.pushes (cfg : LoopConfig) : LoopInput → Bool
  | .event _ => false
  | .tick now => cfg.measurementStart ≤ now

/-- The time of a tick. -/
def LoopInput.tick? : LoopInput → Option ℕ
  | .event _ => none
  | .tick now => some now

/-- The times of the ticks that made an interval. -/
def pushedTicks (cfg : LoopConfig) (inputs : List LoopInput) : List ℕ :=
  (inputs.filter (LoopInput.pushes cfg)).filterMap LoopInput.tick?

/-- The inputs since the last tick that made an interval. -/
def window (cfg : LoopConfig) (inputs : List LoopInput) : List LoopInput :=
  inputs.rtakeWhile fun input => !input.pushes cfg

/-- The inputs up to that tick. -/
def beforeWindow (cfg : LoopConfig) (inputs : List LoopInput) : List LoopInput :=
  inputs.rdropWhile fun input => !input.pushes cfg

/-- What events add to the totals. -/
def totalsOf (events : List PacketEvent) : Totals where
  packetsSent := events.length
  packetsAcked := events.countP fun e => e.recvMonoNs.isSome
  packetsLost := events.countP fun e => e.recvMonoNs.isNone
  bytes := (events.map PacketEvent.bytes).sum

/-- The last latency of a stream. -/
def lastLatency (streamId : UInt32) (events : List PacketEvent) : Option ℚ :=
  ((events.filter fun e => e.streamId = streamId).filterMap PacketEvent.latency).getLast?

/-- The jitter sample of an acknowledged packet, if its stream has an earlier one. -/
def jitterSample (history : List PacketEvent) (event : PacketEvent) : List ℚ :=
  match event.latency, lastLatency event.streamId history with
  | some latencyMs, some prev => [|latencyMs - prev|]
  | _, _ => []

/-- The jitter samples of some events, after others. -/
def jitterSamples : List PacketEvent → List PacketEvent → List ℚ
  | _, [] => []
  | history, event :: events =>
    jitterSample history event ++ jitterSamples (history ++ [event]) events

/-! ## One more input -/

variable (cfg : LoopConfig)

theorem runLoop_concat (s : LoopState) (inputs : List LoopInput) (input : LoopInput) :
    runLoop cfg s (inputs ++ [input]) = loopStep cfg (runLoop cfg s inputs) input :=
  List.foldl_concat ..

theorem measuredEvents_append (inputs inputs' : List LoopInput) :
    measuredEvents (inputs ++ inputs') = measuredEvents inputs ++ measuredEvents inputs' := by
  simp [measuredEvents]

theorem measuredEvents_event (event : PacketEvent) :
    measuredEvents [.event event] = if event.measured then [event] else [] := by
  unfold measuredEvents
  cases h : event.measured <;> simp [LoopInput.event?, h]

theorem measuredEvents_tick (now : ℕ) : measuredEvents [.tick now] = [] :=
  rfl

theorem pushedTicks_append (inputs inputs' : List LoopInput) :
    pushedTicks cfg (inputs ++ inputs') = pushedTicks cfg inputs ++ pushedTicks cfg inputs' := by
  simp [pushedTicks]

theorem totalsOf_concat (events : List PacketEvent) (event : PacketEvent) :
    totalsOf (events ++ [event]) = (totalsOf events).record event := by
  unfold totalsOf Totals.record
  cases h : event.recvMonoNs <;> simp [h]

theorem totalsOf_append (events events' : List PacketEvent) :
    Totals.Le (totalsOf events) (totalsOf (events ++ events')) := by
  unfold totalsOf
  constructor <;> simp

theorem jitterSamples_concat : ∀ (history events : List PacketEvent) (event : PacketEvent),
    jitterSamples history (events ++ [event]) =
      jitterSamples history events ++ jitterSample (history ++ events) event
  | history, [], event => by simp [jitterSamples]
  | history, e :: events, event => by
    rw [List.cons_append, jitterSamples, jitterSamples_concat, jitterSamples, List.append_assoc,
      List.append_assoc, List.singleton_append]

theorem lastLatency_concat (streamId : UInt32) (events : List PacketEvent) (event : PacketEvent) :
    lastLatency streamId (events ++ [event]) =
      if event.streamId = streamId then event.latency.or (lastLatency streamId events)
      else lastLatency streamId events := by
  unfold lastLatency
  rw [List.filter_append, List.filterMap_append, List.getLast?_append]
  split_ifs with h
  · cases hl : event.latency <;> simp [h, hl]
  · simp [h]

/-! ## What an event does -/

theorem intervalLatencies_applyEvent (m : Metrics) (event : PacketEvent) :
    (applyEvent m event).intervalLatencies = m.intervalLatencies ++ event.latency.toList := by
  unfold applyEvent PacketEvent.latency
  cases event.recvMonoNs with
  | none => exact (List.append_nil _).symm
  | some recvNs => rfl

theorem lastLatencyMs_record (s : StreamAccumulator) (event : PacketEvent) :
    (s.record event).lastLatencyMs = event.latency.or s.lastLatencyMs := by
  unfold StreamAccumulator.record PacketEvent.latency
  cases event.recvMonoNs <;> rfl

/-- The accumulators know the last latency of each stream. -/
def KnowsLatencies (m : Metrics) (events : List PacketEvent) : Prop :=
  ∀ streamId, (m.accumulator streamId).lastLatencyMs = lastLatency streamId events

variable {cfg}

theorem KnowsLatencies.applyEvent {m : Metrics} {events : List PacketEvent}
    (h : KnowsLatencies m events) (event : PacketEvent) :
    KnowsLatencies (applyEvent m event) (events ++ [event]) := by
  intro streamId
  rw [accumulator_applyEvent, lastLatency_concat]
  split_ifs
  · rw [lastLatencyMs_record, h]
  · exact h streamId

theorem KnowsLatencies.intervalJitters {m : Metrics} {events : List PacketEvent}
    (h : KnowsLatencies m events) (event : PacketEvent) :
    (Ipfusch.applyEvent m event).intervalJitters =
      m.intervalJitters ++ jitterSample events event := by
  have hlast : (m.streams.getD event.streamId {}).lastLatencyMs =
      lastLatency event.streamId events := h event.streamId
  unfold Ipfusch.applyEvent jitterSample PacketEvent.latency
  cases event.recvMonoNs with
  | none => exact (List.append_nil _).symm
  | some recvNs =>
    simp only [Option.map_some, StreamAccumulator.jitter, hlast]
    cases lastLatency event.streamId events <;> rfl

/-! ## What a tick does -/

/-- `effective_span` -/
def effectiveSpan (cfg : LoopConfig) (s : LoopState) (now : ℕ) : ℕ :=
  let intervalSpan := match s.lastIntervalTick with
    | some lastTick => now - lastTick
    | none => now - cfg.measurementStart
  if intervalSpan = 0 then cfg.interval else intervalSpan

/-- The interval that a tick makes. -/
def madeInterval (cfg : LoopConfig) (s : LoopState) (now : ℕ) : IntervalStats :=
  buildInterval s.intervalIdx (effectiveSpan cfg s now) s.metrics.totals s.totalsPrev
    s.metrics.intervalLatencies s.metrics.intervalJitters cfg.measurementStart now

theorem onTick_of_lt {s : LoopState} {now : ℕ} (h : now < cfg.measurementStart) :
    onTick cfg s now = s :=
  if_pos h

theorem onTick_of_le {s : LoopState} {now : ℕ} (h : cfg.measurementStart ≤ now) :
    onTick cfg s now =
      { metrics := { s.metrics with intervalLatencies := [], intervalJitters := [] }
        totalsPrev := s.metrics.totals
        lastIntervalTick := some now
        intervals := s.intervals ++ [madeInterval cfg s now]
        intervalIdx := s.intervalIdx + 1 } :=
  if_neg (not_lt.mpr h)

/-! ## The loop keeps the window -/

/-- What the loop keeps, after some inputs. -/
structure Tracks (cfg : LoopConfig) (inputs : List LoopInput) (s : LoopState) : Prop where
  totals : s.metrics.totals = totalsOf (measuredEvents inputs)
  totalsPrev : s.totalsPrev = totalsOf (measuredEvents (beforeWindow cfg inputs))
  latencies : s.metrics.intervalLatencies =
    (measuredEvents (window cfg inputs)).filterMap PacketEvent.latency
  jitters : s.metrics.intervalJitters =
    jitterSamples (measuredEvents (beforeWindow cfg inputs)) (measuredEvents (window cfg inputs))
  lastLatencies : KnowsLatencies s.metrics (measuredEvents inputs)
  lastTick : s.lastIntervalTick = (pushedTicks cfg inputs).getLast?
  idx : s.intervalIdx = (pushedTicks cfg inputs).length
  length : s.intervals.length = (pushedTicks cfg inputs).length

/-- The window and what comes before it. -/
theorem beforeWindow_append_window (inputs : List LoopInput) :
    beforeWindow cfg inputs ++ window cfg inputs = inputs :=
  List.rdropWhile_append_rtakeWhile

theorem measuredEvents_window (cfg : LoopConfig) (inputs : List LoopInput) :
    measuredEvents (beforeWindow cfg inputs) ++ measuredEvents (window cfg inputs) =
      measuredEvents inputs := by
  rw [← measuredEvents_append, beforeWindow_append_window]

/-- An input that makes no interval is in the window. -/
theorem window_concat_of_not_pushes {input : LoopInput} (h : input.pushes cfg = false)
    (inputs : List LoopInput) : window cfg (inputs ++ [input]) = window cfg inputs ++ [input] ∧
      beforeWindow cfg (inputs ++ [input]) = beforeWindow cfg inputs ∧
      pushedTicks cfg (inputs ++ [input]) = pushedTicks cfg inputs := by
  refine ⟨List.rtakeWhile_concat_pos _ _ _ (by simp [h]),
    List.rdropWhile_concat_pos _ _ _ (by simp [h]), ?_⟩
  rw [pushedTicks_append]
  simp [pushedTicks, h]

/-- After a tick that makes an interval the window is empty. -/
theorem window_concat_of_pushes {now : ℕ} (h : cfg.measurementStart ≤ now)
    (inputs : List LoopInput) : window cfg (inputs ++ [.tick now]) = [] ∧
      beforeWindow cfg (inputs ++ [.tick now]) = inputs ++ [.tick now] ∧
      pushedTicks cfg (inputs ++ [.tick now]) = pushedTicks cfg inputs ++ [now] := by
  refine ⟨List.rtakeWhile_concat_neg _ _ _ (by simp [LoopInput.pushes, h]),
    List.rdropWhile_concat_neg _ _ _ (by simp [LoopInput.pushes, h]), ?_⟩
  rw [pushedTicks_append]
  simp [pushedTicks, LoopInput.pushes, LoopInput.tick?, h]

theorem tracks_nil : Tracks cfg [] {} where
  totals := rfl
  totalsPrev := rfl
  latencies := rfl
  jitters := rfl
  lastLatencies _ := congrArg StreamAccumulator.lastLatencyMs Std.TreeMap.getD_emptyc
  lastTick := rfl
  idx := rfl
  length := rfl

/-- An input that is skipped. -/
theorem Tracks.skip {inputs : List LoopInput} {s : LoopState} (h : Tracks cfg inputs s)
    {input : LoopInput} (hpushes : input.pushes cfg = false) (hnil : measuredEvents [input] = []) :
    Tracks cfg (inputs ++ [input]) s := by
  obtain ⟨hwindow, hbefore, hticks⟩ := window_concat_of_not_pushes hpushes inputs
  have hevents : ∀ inputs', measuredEvents (inputs' ++ [input]) = measuredEvents inputs' := by
    intro inputs'
    rw [measuredEvents_append, hnil, List.append_nil]
  refine ⟨?_, ?_, ?_, ?_, ?_, ?_, ?_, ?_⟩
  · rw [hevents, h.totals]
  · rw [hbefore, h.totalsPrev]
  · rw [hwindow, hevents, h.latencies]
  · rw [hwindow, hbefore, hevents, h.jitters]
  · rw [hevents]
    exact h.lastLatencies
  · rw [hticks, h.lastTick]
  · rw [hticks, h.idx]
  · rw [hticks, h.length]

/-- A measured event. -/
theorem Tracks.record {inputs : List LoopInput} {s : LoopState} (h : Tracks cfg inputs s)
    {event : PacketEvent} (hm : event.measured = true) :
    Tracks cfg (inputs ++ [.event event]) { s with metrics := applyEvent s.metrics event } := by
  obtain ⟨hwindow, hbefore, hticks⟩ :=
    window_concat_of_not_pushes (show (LoopInput.event event).pushes cfg = false from rfl) inputs
  have hevents : ∀ inputs', measuredEvents (inputs' ++ [.event event]) =
      measuredEvents inputs' ++ [event] := by
    intro inputs'
    rw [measuredEvents_append, measuredEvents_event, if_pos hm]
  refine ⟨?_, ?_, ?_, ?_, ?_, ?_, ?_, ?_⟩
  · rw [hevents, totalsOf_concat, ← h.totals, totals_applyEvent]
  · rw [hbefore, ← h.totalsPrev]
  · rw [hwindow, hevents, List.filterMap_append, ← h.latencies, intervalLatencies_applyEvent]
    cases hl : event.latency <;> simp [hl]
  · rw [hwindow, hbefore, hevents, jitterSamples_concat, ← h.jitters, measuredEvents_window,
      h.lastLatencies.intervalJitters]
  · rw [hevents]
    exact h.lastLatencies.applyEvent event
  · rw [hticks, ← h.lastTick]
  · rw [hticks, ← h.idx]
  · rw [hticks, ← h.length]

/-- A tick that makes an interval. -/
theorem Tracks.push {inputs : List LoopInput} {s : LoopState} (h : Tracks cfg inputs s)
    {now : ℕ} (hnow : cfg.measurementStart ≤ now) :
    Tracks cfg (inputs ++ [.tick now]) (onTick cfg s now) := by
  obtain ⟨hwindow, hbefore, hticks⟩ := window_concat_of_pushes hnow inputs
  have hevents : measuredEvents (inputs ++ [.tick now]) = measuredEvents inputs := by
    rw [measuredEvents_append, measuredEvents_tick, List.append_nil]
  rw [onTick_of_le hnow]
  refine ⟨?_, ?_, ?_, ?_, ?_, ?_, ?_, ?_⟩
  · rw [hevents, ← h.totals]
  · rw [hbefore, hevents, ← h.totals]
  · rw [hwindow]
    rfl
  · rw [hwindow]
    rfl
  · rw [hevents]
    exact h.lastLatencies
  · rw [hticks, List.getLast?_concat]
  · rw [hticks, List.length_append, List.length_singleton, ← h.idx]
  · rw [hticks, List.length_append, List.length_append, h.length]
    rfl

theorem Tracks.step {inputs : List LoopInput} {s : LoopState} (h : Tracks cfg inputs s)
    (input : LoopInput) : Tracks cfg (inputs ++ [input]) (loopStep cfg s input) := by
  cases input with
  | event event =>
    by_cases hm : event.measured = true
    · have hstep : loopStep cfg s (.event event) =
          { s with metrics := applyEvent s.metrics event } := by simp [loopStep, hm]
      rw [hstep]
      exact h.record hm
    · have hstep : loopStep cfg s (.event event) = s := by simp [loopStep, hm]
      rw [hstep]
      exact h.skip rfl (by rw [measuredEvents_event, if_neg hm])
  | tick now =>
    by_cases hnow : now < cfg.measurementStart
    · rw [loopStep, onTick_of_lt hnow]
      exact h.skip (by simpa [LoopInput.pushes] using hnow) (measuredEvents_tick now)
    · exact h.push (not_lt.mp hnow)

/-- The loop keeps the window, at any point of a run. -/
theorem tracks_runLoop (cfg : LoopConfig) (inputs : List LoopInput) :
    Tracks cfg inputs (runLoop cfg {} inputs) := by
  induction inputs using List.reverseRecOn with
  | nil => exact tracks_nil
  | append_singleton inputs input ih =>
    rw [runLoop_concat]
    exact ih.step input

/-! ## The intervals -/

/-- What an interval says about the window before its tick. -/
structure DescribesWindow (cfg : LoopConfig) (inputs : List LoopInput) (now : ℕ)
    (i : IntervalStats) : Prop where
  index : i.index = (pushedTicks cfg inputs).length
  packetsSent : i.packetsSent = (measuredEvents (window cfg inputs)).length
  packetsAcked : i.packetsAcked =
    (measuredEvents (window cfg inputs)).countP fun e => e.recvMonoNs.isSome
  packetsLost : i.packetsLost =
    (measuredEvents (window cfg inputs)).countP fun e => e.recvMonoNs.isNone
  bytes : i.bytes = ((measuredEvents (window cfg inputs)).map PacketEvent.bytes).sum
  jitterMs : i.jitterMs = mean (jitterSamples (measuredEvents (beforeWindow cfg inputs))
    (measuredEvents (window cfg inputs)))
  p50Ms : i.p50Ms =
    quantile ((measuredEvents (window cfg inputs)).filterMap PacketEvent.latency) (50 / 100)
  p95Ms : i.p95Ms =
    quantile ((measuredEvents (window cfg inputs)).filterMap PacketEvent.latency) (95 / 100)
  p99Ms : i.p99Ms =
    quantile ((measuredEvents (window cfg inputs)).filterMap PacketEvent.latency) (99 / 100)
  endMs : i.endMs = (now - cfg.measurementStart) / 1000000

theorem Tracks.describes {inputs : List LoopInput} {s : LoopState} (h : Tracks cfg inputs s)
    (now : ℕ) : DescribesWindow cfg inputs now (madeInterval cfg s now) := by
  have htotals : s.metrics.totals = totalsOf (measuredEvents (beforeWindow cfg inputs) ++
      measuredEvents (window cfg inputs)) := by
    rw [h.totals, measuredEvents_window]
  unfold madeInterval
  refine ⟨h.idx, ?_, ?_, ?_, ?_, ?_, ?_, ?_, ?_, rfl⟩
  · simp [buildInterval, htotals, h.totalsPrev, totalsOf]
  · simp [buildInterval, htotals, h.totalsPrev, totalsOf]
  · simp [buildInterval, htotals, h.totalsPrev, totalsOf]
  · simp [buildInterval, htotals, h.totalsPrev, totalsOf]
  · rw [← h.jitters]
    rfl
  · rw [← h.latencies]
    rfl
  · rw [← h.latencies]
    rfl
  · rw [← h.latencies]
    rfl

/-- No counter of the copy is above the totals, so no difference saturates. -/
theorem Tracks.totalsPrev_le {inputs : List LoopInput} {s : LoopState} (h : Tracks cfg inputs s) :
    Totals.Le s.totalsPrev s.metrics.totals := by
  rw [h.totalsPrev, h.totals, ← measuredEvents_window cfg inputs]
  exact totalsOf_append _ _

theorem intervals_loopStep (s : LoopState) (input : LoopInput) :
    s.intervals <+: (loopStep cfg s input).intervals := by
  cases input with
  | event event =>
    unfold loopStep
    dsimp only
    split_ifs <;> exact List.prefix_rfl
  | tick now =>
    unfold loopStep onTick
    dsimp only
    split_ifs
    · exact List.prefix_rfl
    · exact List.prefix_append _ _
    · exact List.prefix_append _ _

/-- No interval is changed later. -/
theorem intervals_runLoop : ∀ (inputs : List LoopInput) (s : LoopState),
    s.intervals <+: (runLoop cfg s inputs).intervals
  | [], _ => List.prefix_rfl
  | input :: inputs, s => by
    rw [runLoop_cons]
    exact (intervals_loopStep s input).trans (intervals_runLoop inputs _)

/-- What holds of each interval that a tick makes holds of all intervals. -/
theorem forall_intervals_runLoop {P : IntervalStats → Prop}
    (hP : ∀ s now, P (madeInterval cfg s now)) (inputs : List LoopInput) :
    ∀ i ∈ (runLoop cfg {} inputs).intervals, P i := by
  induction inputs using List.reverseRecOn with
  | nil => simp [runLoop]
  | append_singleton inputs input ih =>
    rw [runLoop_concat]
    cases input with
    | event event =>
      unfold loopStep
      dsimp only
      split_ifs <;> exact ih
    | tick now =>
      by_cases hnow : now < cfg.measurementStart
      · rw [loopStep, onTick_of_lt hnow]
        exact ih
      · rw [loopStep, onTick_of_le (not_lt.mp hnow)]
        intro i hi
        rcases List.mem_append.mp hi with hold | hnew
        · exact ih i hold
        · rw [List.mem_singleton.mp hnew]
          exact hP _ now

/-- The interval that a tick makes is in the report. -/
theorem getElem?_intervals {before after : List LoopInput} {now : ℕ}
    (hnow : cfg.measurementStart ≤ now) :
    (runLoop cfg {} (before ++ .tick now :: after)).intervals[(pushedTicks cfg before).length]? =
      some (madeInterval cfg (runLoop cfg {} before) now) := by
  have hrun : runLoop cfg {} (before ++ .tick now :: after) =
      runLoop cfg (onTick cfg (runLoop cfg {} before) now) after :=
    List.foldl_append ..
  have hlast : (onTick cfg (runLoop cfg {} before) now).intervals[(pushedTicks cfg before).length]?
      = some (madeInterval cfg (runLoop cfg {} before) now) := by
    rw [onTick_of_le hnow, ← (tracks_runLoop cfg before).length]
    exact List.getElem?_concat_length
  rw [hrun]
  obtain ⟨later, hlater⟩ := intervals_runLoop after (onTick cfg (runLoop cfg {} before) now)
  rw [← hlater, List.getElem?_append_left (List.getElem?_eq_some_iff.mp hlast).1, hlast]

/-! ## Where the intervals start -/

/-- The ticks see an increasing clock. -/
def TicksIncrease (inputs : List LoopInput) : Prop :=
  (inputs.filterMap LoopInput.tick?).Pairwise (· < ·)

/-- The first interval starts when the measurement does. -/
theorem startMs_madeInterval_first (cfg : LoopConfig) {s : LoopState}
    (h : s.lastIntervalTick = none) (now : ℕ) :
    (madeInterval cfg s now).startMs = 0 := by
  have hspan : now - cfg.measurementStart - effectiveSpan cfg s now = 0 := by
    unfold effectiveSpan
    rw [h]
    dsimp only
    split_ifs <;> omega
  unfold madeInterval buildInterval
  dsimp only
  rw [hspan, Nat.zero_div]

/-- A later one starts at the tick before, if that one is earlier. -/
theorem startMs_madeInterval {s : LoopState} {lastTick now : ℕ}
    (h : s.lastIntervalTick = some lastTick) (hstart : cfg.measurementStart ≤ lastTick)
    (hnow : lastTick < now) :
    (madeInterval cfg s now).startMs = (lastTick - cfg.measurementStart) / 1000000 := by
  have hspan : now - cfg.measurementStart - effectiveSpan cfg s now =
      lastTick - cfg.measurementStart := by
    unfold effectiveSpan
    rw [h]
    dsimp only
    split_ifs <;> omega
  unfold madeInterval buildInterval
  dsimp only
  rw [hspan]

/-- Each interval starts where the one before it ends. -/
structure Contiguous (cfg : LoopConfig) (inputs : List LoopInput) (s : LoopState) : Prop where
  first : ∀ i ∈ s.intervals.head?, i.startMs = 0
  chain : s.intervals.IsChain fun i i' => i'.startMs = i.endMs
  last : s.lastIntervalTick = none ∧ s.intervals = [] ∨
    ∃ lastTick ∈ inputs.filterMap LoopInput.tick?, ∃ i, s.lastIntervalTick = some lastTick ∧
      cfg.measurementStart ≤ lastTick ∧ s.intervals.getLast? = some i ∧
      i.endMs = (lastTick - cfg.measurementStart) / 1000000

/-- The intervals stay contiguous while none is made. -/
theorem Contiguous.skip {inputs : List LoopInput} {s s' : LoopState} (h : Contiguous cfg inputs s)
    (hintervals : s'.intervals = s.intervals) (hlast : s'.lastIntervalTick = s.lastIntervalTick)
    (input : LoopInput) : Contiguous cfg (inputs ++ [input]) s' := by
  refine ⟨by rw [hintervals]; exact h.first, by rw [hintervals]; exact h.chain, ?_⟩
  rw [hintervals, hlast]
  rcases h.last with hnone | ⟨lastTick, hmem, hi⟩
  · exact Or.inl hnone
  · exact Or.inr ⟨lastTick, by rw [List.filterMap_append]; exact List.mem_append_left _ hmem, hi⟩

theorem Contiguous.push {inputs : List LoopInput} {s : LoopState} (h : Contiguous cfg inputs s)
    {now : ℕ} (hnow : cfg.measurementStart ≤ now) (hticks : TicksIncrease (inputs ++ [.tick now])) :
    Contiguous cfg (inputs ++ [.tick now]) (onTick cfg s now) := by
  have hend : (madeInterval cfg s now).endMs = (now - cfg.measurementStart) / 1000000 := rfl
  have hmem : now ∈ (inputs ++ [LoopInput.tick now]).filterMap LoopInput.tick? :=
    List.mem_filterMap.mpr ⟨.tick now, List.mem_append_right _ List.mem_cons_self, rfl⟩
  rw [onTick_of_le hnow]
  rcases h.last with ⟨hnone, hnil⟩ | ⟨lastTick, htick, i, hsome, hstart, hgetLast, hi⟩
  · have hfirst := startMs_madeInterval_first cfg hnone now
    refine ⟨?_, ?_, Or.inr ⟨now, hmem, _, rfl, hnow, List.getLast?_concat, hend⟩⟩
    · simpa [hnil] using hfirst
    · simp [hnil]
  · have hlt : lastTick < now := by
      unfold TicksIncrease at hticks
      rw [List.filterMap_append] at hticks
      exact (List.pairwise_append.mp hticks).2.2 lastTick htick now (by simp [LoopInput.tick?])
    have hlink := (startMs_madeInterval hsome hstart hlt).trans hi.symm
    refine ⟨?_, ?_, Or.inr ⟨now, hmem, _, rfl, hnow, List.getLast?_concat, hend⟩⟩
    · cases hs : s.intervals with
      | nil => simp [hs] at hgetLast
      | cons i' intervals =>
        have hfirst := h.first i' (by simp [hs])
        simpa using hfirst
    · refine List.isChain_append.mpr ⟨h.chain, List.isChain_singleton _, fun x hx y hy => ?_⟩
      obtain rfl : i = x := Option.some.inj (hgetLast.symm.trans hx)
      obtain rfl : madeInterval cfg s now = y := Option.some.inj hy
      exact hlink

theorem contiguous_runLoop (cfg : LoopConfig) (inputs : List LoopInput)
    (hticks : TicksIncrease inputs) : Contiguous cfg inputs (runLoop cfg {} inputs) := by
  induction inputs using List.reverseRecOn with
  | nil => exact ⟨by simp [runLoop], List.isChain_nil, Or.inl ⟨rfl, rfl⟩⟩
  | append_singleton inputs input ih =>
    have hbefore : TicksIncrease inputs := by
      unfold TicksIncrease at hticks ⊢
      rw [List.filterMap_append] at hticks
      exact (List.pairwise_append.mp hticks).1
    have hcontiguous := ih hbefore
    rw [runLoop_concat]
    cases input with
    | event event =>
      refine hcontiguous.skip ?_ ?_ _
      · unfold loopStep
        dsimp only
        split_ifs <;> rfl
      · unfold loopStep
        dsimp only
        split_ifs <;> rfl
    | tick now =>
      by_cases hnow : now < cfg.measurementStart
      · rw [loopStep, onTick_of_lt hnow]
        exact hcontiguous.skip rfl rfl _
      · exact hcontiguous.push (not_lt.mp hnow) hticks

/-- Each interval describes exactly its own window. If the clock increases, the intervals
start where the measurement does, and then each where the one before it ends. A tick before
the start of the measurement changes nothing. -/
theorem intervals_windows (cfg : LoopConfig) (inputs : List LoopInput) :
    (runBenchmark cfg inputs).intervals.length = (pushedTicks cfg inputs).length ∧
      (∀ before now after, inputs = before ++ .tick now :: after → cfg.measurementStart ≤ now →
        ∃ i, (runBenchmark cfg inputs).intervals[(pushedTicks cfg before).length]? = some i ∧
          DescribesWindow cfg before now i ∧
          Totals.Le (runLoop cfg {} before).totalsPrev (runLoop cfg {} before).metrics.totals) ∧
      (TicksIncrease inputs →
        (∀ i ∈ (runBenchmark cfg inputs).intervals.head?, i.startMs = 0) ∧
          (runBenchmark cfg inputs).intervals.IsChain fun i i' => i'.startMs = i.endMs) ∧
      ∀ (s : LoopState) (now : ℕ), now < cfg.measurementStart → loopStep cfg s (.tick now) = s := by
  refine ⟨(tracks_runLoop cfg inputs).length, ?_, fun hticks => ?_, fun s now => onTick_of_lt⟩
  · rintro before now after rfl hnow
    have htracks := tracks_runLoop cfg before
    exact ⟨_, getElem?_intervals hnow, htracks.describes now, htracks.totalsPrev_le⟩
  · have hcontiguous := contiguous_runLoop cfg inputs hticks
    exact ⟨hcontiguous.first, hcontiguous.chain⟩

end Ipfusch
