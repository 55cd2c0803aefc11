import Ipfusch.Engine

/-!
# Intervals and the aggregate

Each interval counts what was added to the totals since the interval before it, so the
intervals together count what the totals were at the last tick (`telescopes_runLoop`). The
aggregate counts the totals when the event channel closes, and no interval is made then.

`intervalsCover_iff` : the intervals add up to the aggregate exactly if each measured event
is followed by a tick that makes an interval.
-/

namespace Ipfusch

/-- The counters that intervals and the aggregate have in common. -/
structure Counters where
  packetsSent : ℕ
  packetsAcked : ℕ
  packetsLost : ℕ
  bytes : ℕ
  deriving DecidableEq, Repr

/-- The counters of the intervals, added up. -/
def sumIntervals (intervals : List IntervalStats) : Counters where
  packetsSent := (intervals.map fun i => i.packetsSent).sum
  packetsAcked := (intervals.map fun i => i.packetsAcked).sum
  packetsLost := (intervals.map fun i => i.packetsLost).sum
  bytes := (intervals.map fun i => i.bytes).sum

/-- The counters of the aggregate. -/
def AggregateStats.counters (a : AggregateStats) : Counters :=
  ⟨a.packetsSent, a.packetsAcked, a.packetsLost, a.bytes⟩

/-- The totals as counters. -/
def Totals.counters (t : Totals) : Counters :=
  ⟨t.packetsSent, t.packetsAcked, t.packetsLost, t.bytes⟩

/-- The intervals of the report add up to its aggregate. -/
def IntervalsCover (cfg : LoopConfig) (inputs : List LoopInput) : Prop :=
  sumIntervals (runBenchmark cfg inputs).intervals = (runBenchmark cfg inputs).aggregate.counters

/-- A tick that makes an interval. -/
def Ticked (cfg : LoopConfig) (inputs : List LoopInput) : Prop :=
  ∃ now, .tick now ∈ inputs ∧ cfg.measurementStart ≤ now

/-- Each measured event is followed by a tick that makes an interval. -/
def EventsTicked (cfg : LoopConfig) : List LoopInput → Prop
  | [] => True
  | .event event :: inputs => (event.measured = true → Ticked cfg inputs) ∧ EventsTicked cfg inputs
  | .tick _ :: inputs => EventsTicked cfg inputs

/-! ## What a turn of the loop counts -/

/-- No counter of `s` is above that of `t`. -/
structure Totals.Le (s t : Totals) : Prop where
  packetsSent : s.packetsSent ≤ t.packetsSent
  packetsAcked : s.packetsAcked ≤ t.packetsAcked
  packetsLost : s.packetsLost ≤ t.packetsLost
  bytes : s.bytes ≤ t.bytes

theorem Totals.Le.refl (t : Totals) : Totals.Le t t :=
  ⟨le_rfl, le_rfl, le_rfl, le_rfl⟩

theorem Totals.Le.record {s t : Totals} (h : Totals.Le s t) (event : PacketEvent) :
    Totals.Le s (t.record event) := by
  obtain ⟨h1, h2, h3, h4⟩ := h
  unfold Totals.record
  cases event.recvMonoNs <;> exact ⟨by dsimp only; omega, by dsimp only; omega,
    by dsimp only; omega, by dsimp only; omega⟩

theorem Totals.packetsSent_record (t : Totals) (event : PacketEvent) :
    (t.record event).packetsSent = t.packetsSent + 1 := by
  unfold Totals.record
  cases event.recvMonoNs <;> rfl

theorem totals_applyEvent (m : Metrics) (event : PacketEvent) :
    (applyEvent m event).totals = m.totals.record event := by
  unfold applyEvent
  cases event.recvMonoNs <;> rfl

/-- The intervals add up to the totals at the last tick, which no counter has fallen below. -/
structure Telescopes (s : LoopState) : Prop where
  sums : sumIntervals s.intervals = s.totalsPrev.counters
  le : Totals.Le s.totalsPrev s.metrics.totals

section Loop

variable (cfg : LoopConfig)

theorem runLoop_cons (s : LoopState) (input : LoopInput) (inputs : List LoopInput) :
    runLoop cfg s (input :: inputs) = runLoop cfg (loopStep cfg s input) inputs :=
  rfl

theorem telescopes_onTick {s : LoopState} (h : Telescopes s) (now : ℕ) :
    Telescopes (onTick cfg s now) := by
  unfold onTick
  split_ifs
  · exact h
  · refine ⟨?_, Totals.Le.refl _⟩
    obtain ⟨h1, h2, h3, h4⟩ := Counters.mk.inj h.sums
    simp only [sumIntervals, Totals.counters, buildInterval, List.map_append, List.map_cons,
      List.map_nil, List.sum_append, List.sum_cons, List.sum_nil, h1, h2, h3, h4]
    congr 1
    · have := h.le.packetsSent
      omega
    · have := h.le.packetsAcked
      omega
    · have := h.le.packetsLost
      omega
    · have := h.le.bytes
      omega

theorem telescopes_loopStep {s : LoopState} (h : Telescopes s)
    (input : LoopInput) : Telescopes (loopStep cfg s input) := by
  cases input with
  | tick now => exact telescopes_onTick cfg h now
  | event event =>
    unfold loopStep
    dsimp only
    split_ifs
    · exact h
    · exact ⟨h.sums, by rw [totals_applyEvent]; exact h.le.record event⟩

theorem telescopes_runLoop : ∀ (inputs : List LoopInput) {s : LoopState},
    Telescopes s → Telescopes (runLoop cfg s inputs)
  | [], _, h => h
  | input :: inputs, s, h => by
    rw [runLoop_cons]
    exact telescopes_runLoop inputs (telescopes_loopStep cfg h input)

/-! ## What is left after the last tick -/

/-- Nothing was counted since the last tick. -/
def Flushed (s : LoopState) : Prop :=
  s.totalsPrev = s.metrics.totals

theorem ticked_cons_event {event : PacketEvent} {inputs : List LoopInput} :
    Ticked cfg (.event event :: inputs) ↔ Ticked cfg inputs := by
  simp [Ticked]

theorem ticked_cons_tick {now : ℕ} {inputs : List LoopInput} :
    Ticked cfg (.tick now :: inputs) ↔ cfg.measurementStart ≤ now ∨ Ticked cfg inputs := by
  simp [Ticked, or_and_right, exists_or]

theorem flushed_onTick {s : LoopState} {now : ℕ} :
    Flushed (onTick cfg s now) ↔ Flushed s ∨ cfg.measurementStart ≤ now := by
  unfold onTick
  split_ifs with hnow
  · simp [hnow]
  · simp [Flushed, not_lt.mp hnow]

theorem flushed_loopStep_event {s : LoopState} (h : Telescopes s) {event : PacketEvent} :
    Flushed (loopStep cfg s (.event event)) ↔ Flushed s ∧ event.measured = false := by
  unfold loopStep
  dsimp only
  by_cases hm : event.measured = true
  · have hle := h.le.packetsSent
    rw [hm, Bool.not_true, if_neg Bool.false_ne_true]
    simp only [Flushed, totals_applyEvent, Bool.true_eq_false, and_false, iff_false]
    intro heq
    have hsent := congrArg Totals.packetsSent heq
    rw [Totals.packetsSent_record] at hsent
    omega
  · rw [Bool.not_eq_true] at hm
    rw [hm, Bool.not_false, if_pos rfl]
    simp

/-- All is counted at the end exactly if each measured event is followed by a tick, and so is
what was not counted before. -/
theorem flushed_runLoop : ∀ (inputs : List LoopInput) {s : LoopState}, Telescopes s →
    (Flushed (runLoop cfg s inputs) ↔ EventsTicked cfg inputs ∧ (Flushed s ∨ Ticked cfg inputs))
  | [], s, _ => by simp [runLoop, EventsTicked, Ticked]
  | .tick now :: inputs, s, h => by
    have ih := flushed_runLoop inputs (telescopes_onTick cfg h now)
    rw [runLoop_cons, loopStep, ih, flushed_onTick, ticked_cons_tick, or_assoc]
    rfl
  | .event event :: inputs, s, h => by
    have ih := flushed_runLoop inputs (telescopes_loopStep cfg h (.event event))
    rw [runLoop_cons, ih, flushed_loopStep_event cfg h, ticked_cons_event, EventsTicked]
    cases event.measured
    · simp
    · simp only [Bool.true_eq_false, and_false, false_or, forall_const]
      tauto

/-- The intervals add up to the aggregate exactly if each measured event is followed by a
tick that makes an interval. -/
theorem intervalsCover_iff (inputs : List LoopInput) :
    IntervalsCover cfg inputs ↔ EventsTicked cfg inputs := by
  have h0 : Telescopes {} := ⟨rfl, Totals.Le.refl _⟩
  have hsum := (telescopes_runLoop cfg inputs h0).sums
  have hcover : IntervalsCover cfg inputs ↔ (runLoop cfg {} inputs).totalsPrev.counters =
      (runLoop cfg {} inputs).metrics.totals.counters := by
    rw [← hsum]
    rfl
  have hflushed : Flushed (runLoop cfg {} inputs) ↔ (runLoop cfg {} inputs).totalsPrev.counters =
      (runLoop cfg {} inputs).metrics.totals.counters := by
    refine ⟨fun h => congrArg Totals.counters h, fun h => ?_⟩
    obtain ⟨h1, h2, h3, h4⟩ := Counters.mk.inj h
    exact Totals.ext h1 h2 h3 h4
  rw [hcover, ← hflushed, flushed_runLoop cfg inputs h0]
  exact and_iff_left (Or.inl rfl)

end Loop

/-- A packet that is flushed as lost after the last tick is in the aggregate only. -/
theorem not_intervalsCover_flushed : ¬IntervalsCover
    { duration := 1000000000, interval := 500000000, measurementStart := 0 }
    [.tick 0, .event ⟨0, 1, 64, 1000, some 5000, true⟩, .tick 500000000,
      .event ⟨0, 2, 64, 2000, none, true⟩] := by
  intro h
  have hsent : 1 = 2 := congrArg Counters.packetsSent h
  exact absurd hsent (by decide)

end Ipfusch
