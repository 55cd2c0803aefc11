import Ipfusch.Statistics
import Ipfusch.UdpStream

/-!
# Reordering

The engine counts a packet as reordered if a packet with a higher number was reported as
received before it. The events it counts come from a client that takes one datagram for each
packet, and reports an echo of any other packet as a loss.

`udp_packetsReordered` : the counter is zero after every run, in whatever order the echoes
arrive. `reorderingMeasured_iff` : so it measures reordering exactly if there is none.
-/

namespace Ipfusch

/-- The header of a datagram is that of a packet. -/
def IsEcho (spec : StreamRunSpec) (e : PacketEvent) (frame : List UInt8) : Prop :=
  frame.take dataHeaderSize =
    (packetHeader spec (UInt64.ofNat e.seq) (UInt64.ofNat e.sendMonoNs)).encode

instance (spec : StreamRunSpec) (e : PacketEvent) (frame : List UInt8) :
    Decidable (IsEcho spec e frame) :=
  inferInstanceAs (Decidable (_ = _))

/-- The numbers of the packets that were sent. -/
def sentSeqs (t : List UdpObs) : List ℕ :=
  t.filterMap fun
    | .sent seq _ => some seq
    | _ => none

/-- The number of the measured packet that is echoed, if the packet was sent before. -/
def echoSeq (spec : StreamRunSpec) (events : List PacketEvent) (before : List UdpObs) :
    UdpObs → Option ℕ
  | .arrived frame _ =>
    (events.find? fun e => e.measured ∧ IsEcho spec e frame ∧ e.seq ∈ sentSeqs before).map
      PacketEvent.seq
  | _ => none

/-- The numbers of the measured packets of a run whose echoes the client reads, in the order in
which it reads them. -/
def echoSeqs (spec : StreamRunSpec) (t : List UdpObs) : List ℕ :=
  (List.range t.length).filterMap fun i => t[i]?.bind (echoSeq spec (waitEvents t) (t.take i))

/-- The counter of the stream is the number of echoes that come after one of a later packet. -/
def ReorderingMeasured (spec : StreamRunSpec) (cfg : LoopConfig) (t : List UdpObs)
    (inputs : List LoopInput) : Prop :=
  ((runLoop cfg {} inputs).metrics.accumulator spec.streamId).packetsReordered =
    overtaken (echoSeqs spec t)

/-! ## The counter -/

section Counter

variable (sha256 : List UInt8 → Digest) {spec : StreamRunSpec} {t : List UdpObs}
  {s : UdpStreamState} {inputs : List LoopInput}

/-- The events of a run are in order. -/
theorem pairwise_waitEvents (hr : (udpStream sha256 spec).Reach t s) :
    (waitEvents t).Pairwise fun e e' => e.seq < e'.seq := by
  rcases inTurn_loop.reach sha256 (inTurn_init spec) hr with ⟨w, -, hw⟩ | ⟨rfl, -⟩
  · exact hw.sorted
  · exact .nil

/-- After every run the counter is zero. -/
theorem udp_packetsReordered (cfg : LoopConfig) (hr : (udpStream sha256 spec).Reach t s)
    (hevents : eventsOf spec.streamId inputs = waitEvents t) :
    ((runLoop cfg {} inputs).metrics.accumulator spec.streamId).packetsReordered = 0 := by
  refine packetsReordered_runLoop cfg ?_
  rw [hevents]
  refine (pairwise_waitEvents sha256 hr).filterMap _ fun e e' hlt seq hseq seq' hseq' => ?_
  obtain ⟨_, -, rfl⟩ := Option.map_eq_some_iff.mp hseq
  obtain ⟨_, -, rfl⟩ := Option.map_eq_some_iff.mp hseq'
  exact hlt

/-- The counter measures reordering exactly if the echoes of measured packets are read in the
order of their numbers. -/
theorem reorderingMeasured_iff (cfg : LoopConfig) (hr : (udpStream sha256 spec).Reach t s)
    (hevents : eventsOf spec.streamId inputs = waitEvents t) :
    ReorderingMeasured spec cfg t inputs ↔ (echoSeqs spec t).Pairwise (· ≤ ·) := by
  rw [ReorderingMeasured, udp_packetsReordered sha256 cfg hr hevents, eq_comm,
    overtaken_eq_zero_iff]

end Counter

/-! ## Runs -/

/-- Measurement without ticks. -/
def idleLoop : LoopConfig :=
  ⟨100, 10, 0⟩

/-- The echo of the first packet comes after that of the second one. -/
def echoesSwapped : List UdpStreamAction :=
  [.replicate 7 .tick, [.wait 5, .elapsed], .replicate 6 .tick, [.arrive (udpEcho 2 5), .recv],
    .replicate 6 .tick, [.arrive (udpEcho 1 0), .recv]].flatten

theorem echoesSwapped_exec :
    ((udpStream noHash udpSpec).exec udpLoopStart echoesSwapped).map Prod.snd =
      some [.sent 1 0, .event ⟨0, 1, 0, 0, none, true⟩,
        .sent 2 5, .arrived (udpEcho 2 5) 5, .event ⟨0, 2, 0, 5, some 5, true⟩,
        .sent 3 5, .arrived (udpEcho 1 0) 5, .event ⟨0, 3, 0, 5, none, true⟩] := by
  decide +kernel

/-- The events of the run. -/
def swappedEvents : List LoopInput :=
  [.event ⟨0, 1, 0, 0, none, true⟩, .event ⟨0, 2, 0, 5, some 5, true⟩,
    .event ⟨0, 3, 0, 5, none, true⟩]

/-- An echo is read after one of a later packet, and the counter is zero. -/
theorem not_reorderingMeasured_swapped :
    ¬∀ t s inputs, (udpStream noHash udpSpec).Reach t s →
      eventsOf udpSpec.streamId inputs = waitEvents t →
        ReorderingMeasured udpSpec idleLoop t inputs := by
  intro h
  obtain ⟨⟨s, t⟩, hexec, rfl⟩ := Option.map_eq_some_iff.mp echoesSwapped_exec
  have hreach := (reach_udpLoopStart noHash udpSpec).exec hexec
  have hmeasured := h _ s swappedEvents hreach rfl
  rw [ReorderingMeasured, udp_packetsReordered noHash idleLoop hreach rfl] at hmeasured
  exact absurd hmeasured (by decide +kernel)

theorem reorderingMeasured_iff_swapped :
    ∃ t s, (udpStream noHash udpSpec).Reach t s ∧ waitEvents t ≠ [] ∧
      (ReorderingMeasured udpSpec idleLoop t swappedEvents ↔
        (echoSeqs udpSpec t).Pairwise (· ≤ ·)) := by
  obtain ⟨⟨s, t⟩, hexec, rfl⟩ := Option.map_eq_some_iff.mp echoesSwapped_exec
  have hreach := (reach_udpLoopStart noHash udpSpec).exec hexec
  exact ⟨_, s, hreach, by decide, reorderingMeasured_iff noHash idleLoop hreach rfl⟩

end Ipfusch
