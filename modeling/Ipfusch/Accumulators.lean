import Ipfusch.Intervals

/-!
# Accumulators of a stream

The engine keeps an accumulator for each stream. `accumulator_runLoop` : it is the fold of
`StreamAccumulator.record` over the measured events of that stream, whatever events of other
streams and ticks come in between.
-/

namespace Ipfusch

/-- The events among some inputs. -/
def LoopInput.event? : LoopInput → Option PacketEvent
  | .event e => some e
  | .tick _ => none

/-- The events of a stream. -/
def eventsOf (streamId : UInt32) (inputs : List LoopInput) : List PacketEvent :=
  (inputs.filterMap LoopInput.event?).filter fun event => event.streamId = streamId

/-- The number of an acknowledged packet. -/
def PacketEvent.ackedSeq (event : PacketEvent) : Option ℕ :=
  event.recvMonoNs.map fun _ => event.seq

/-- The accumulator of a stream. -/
def Metrics.accumulator (m : Metrics) (streamId : UInt32) : StreamAccumulator :=
  m.streams.getD streamId {}

/-! ## The accumulator is a fold -/

/-- An event changes the accumulator of its stream only. -/
theorem accumulator_applyEvent (m : Metrics) (event : PacketEvent) (streamId : UInt32) :
    (applyEvent m event).accumulator streamId =
      if event.streamId = streamId then (m.accumulator streamId).record event
      else m.accumulator streamId := by
  have hstreams : (applyEvent m event).streams =
      m.streams.insert event.streamId ((m.accumulator event.streamId).record event) := by
    unfold applyEvent
    cases event.recvMonoNs <;> rfl
  rw [Metrics.accumulator, hstreams, Std.TreeMap.getD_insert, Metrics.accumulator]
  simp only [Std.LawfulEqCmp.compare_eq_iff_eq]
  split_ifs with heq
  · rw [heq]
    rfl
  · rfl

/-- A tick changes no accumulator. -/
theorem accumulator_onTick (cfg : LoopConfig) (s : LoopState) (now : ℕ) (streamId : UInt32) :
    (onTick cfg s now).metrics.accumulator streamId = s.metrics.accumulator streamId := by
  unfold onTick
  split_ifs <;> rfl

/-- The accumulator of a stream after some inputs, from its measured events. -/
theorem accumulator_runLoop (cfg : LoopConfig) (streamId : UInt32) :
    ∀ (inputs : List LoopInput) (s : LoopState),
      (runLoop cfg s inputs).metrics.accumulator streamId =
        ((eventsOf streamId inputs).filter PacketEvent.measured).foldl StreamAccumulator.record
          (s.metrics.accumulator streamId)
  | [], _ => rfl
  | .tick now :: inputs, s => by
    rw [runLoop_cons, accumulator_runLoop cfg streamId inputs, loopStep, accumulator_onTick]
    rfl
  | .event event :: inputs, s => by
    rw [runLoop_cons, accumulator_runLoop cfg streamId inputs]
    unfold loopStep eventsOf
    simp only [List.filterMap_cons, LoopInput.event?, List.filter_cons]
    by_cases hid : event.streamId = streamId
    · by_cases hmeasured : event.measured = true
      · simp [hid, hmeasured, accumulator_applyEvent]
      · simp [hid, hmeasured]
    · by_cases hmeasured : event.measured = true
      · simp [hid, hmeasured, accumulator_applyEvent]
      · simp [hid, hmeasured]

end Ipfusch
