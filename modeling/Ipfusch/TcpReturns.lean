import Ipfusch.RunReturns
import Ipfusch.TcpProgress
import Ipfusch.TcpRun

/-!
# `run_benchmark` over TCP returns

A stream whose clock is behind its drain deadline and the time of its next packet has work left that
its own steps, its server's and those of the connection lower (`TcpProgress`), and goes on until it
has ended.

`tcpRun_returns` : with all clocks there, a run over TCP returns.
-/

namespace Ipfusch

section Tcp

variable (cfg : RunConfig) (sessionId : UInt64) (time : ℕ)

/-- The set-up of a stream is over, and its drain deadline and the time of its next packet are at
`time` or before. -/
def drainsBy (i : Fin cfg.streams.toNat) :
    Fleet.Stage (ℕ × ℕ) SetUpFailure TcpSystemState → Bool
  | .before => false
  | .failed _ => true
  | .running p c =>
    drainAt (cfg.streamSpec sessionId i) p.1 ≤ time ∧ c.client.nextSend ≤ time

/-- Each stream comes to its end. -/
def tcpStreamProgress (hpayload : cfg.payloadBytes.toNat < 2 ^ 32) :
    StreamProgress (tcpStreams cfg sessionId) TcpSystemObs.event?
      (fun c : TcpSystemState => c.client.pc.exit) where
  Good i p c := drainAt (cfg.streamSpec sessionId i) p.1 ≤ time ∧ c.client.WakesBy time ∧
    ∃ t, (tcpStreams cfg sessionId i p).Reach t c
  allowed a := a.late time
  own := TcpSystemAction.moves
  time _ := 0
  pause := 0
  waiting _ := false
  rank i c := c.work (cfg.streamSpec sessionId i)
  step {i p s a s' o} hgood hlate hstep := by
    obtain ⟨hdrain, hwakes, t, hreach⟩ := hgood
    have hfit : (cfg.streamSpec sessionId i).payloadBytes.toNat < 2 ^ 32 := hpayload
    have hlinked := linked_reach hfit hreach
    have hlate' := TcpSystemAction.late_mono hlate hdrain
    rw [filterMap_event?]
    exact ⟨⟨hdrain, wakesBy_step hlinked hstep hlate' hwakes, _, hreach.step hstep⟩,
      work_step hlinked hstep hlate', work_events hlinked hstep hlate'⟩
  progress {i p s} hgood hopen _ := by
    obtain ⟨hdrain, hwakes, t, hreach⟩ := hgood
    have hended : s.client.pc.ended = false := by
      cases hpc : s.client.pc <;> rw [hpc] at hopen <;> first | rfl | cases hopen
    have hfit : (cfg.streamSpec sessionId i).payloadBytes.toNat < 2 ^ 32 := hpayload
    obtain ⟨a, hmoves, htime, -, hsome⟩ :=
      exists_late hfit hreach hended hwakes (c := (1, 1)) Nat.one_pos Nat.one_pos
    obtain ⟨⟨s', o⟩, hs⟩ := Option.isSome_iff_exists.mp hsome
    have hstep : (tcpStreams cfg sessionId i p).step s a = some (s', o) := hs
    refine ⟨[a], ?_, ?_, le_rfl, ?_⟩
    · rw [List.all_cons, List.all_nil, Bool.and_true]
      exact TcpSystemAction.late_of_atTime htime
    · rw [List.any_cons, List.any_nil, Bool.or_false]
      exact hmoves
    · rw [Machine.exec, hstep]
      rfl

/-- The run comes to its end. -/
def tcpProgress (hpayload : cfg.payloadBytes.toNat < 2 ^ 32) :
    TaskProgress (tcpTasks cfg sessionId) :=
  (tcpStreamProgress cfg sessionId time hpayload).tasks (tcp_endsQuietly cfg sessionId)

variable {cfg sessionId time}

/-- What is overdue at `time` is so at each later time. -/
theorem tcpProgress_later {hpayload : cfg.payloadBytes.toNat < 2 ^ 32} {time' : ℕ}
    (hle : time ≤ time') {s : Fin cfg.streams.toNat → Fleet.Stage (ℕ × ℕ) SetUpFailure
      TcpSystemState} (h : (tcpProgress cfg sessionId time hpayload).Good s) :
    (tcpProgress cfg sessionId time' hpayload).Good s := by
  intro i
  have hgood : (tcpStreamProgress cfg sessionId time hpayload).GoodStage i (s i) := h i
  cases hs : s i with
  | before =>
    rw [hs] at hgood
    exact hgood
  | failed e => trivial
  | running p c =>
    rw [hs] at hgood
    obtain ⟨hdrain, hwakes, hreach⟩ := hgood
    exact ⟨hdrain.trans hle, fun hpaces => (hwakes hpaces).trans hle, hreach⟩

/-- No stream waits for what is no step of it or of its server. -/
theorem tcpProgress_waiting {hpayload : cfg.payloadBytes.toNat < 2 ^ 32}
    {s : Fin cfg.streams.toNat → Fleet.Stage (ℕ × ℕ) SetUpFailure TcpSystemState}
    (h : (tcpProgress cfg sessionId time hpayload).waiting s = true) :
    (tcpTasks cfg sessionId).allEnded s = true := by
  refine StreamTasks.allEnded_iff.mpr fun i => ?_
  refine Option.ne_none_iff_exists'.mp fun hopen => ?_
  have hwaiting : (tcpStreamProgress cfg sessionId time hpayload).waitingStage (s i) = true :=
    of_decide_eq_true h i hopen
  cases hs : s i <;> rw [hs] at hwaiting <;> cases hwaiting

end Tcp

/-- The stream is entered. -/
def oneEntered : List (Pipe.Action (Fin 1 × Fleet.StageAction (ℕ × ℕ) SetUpFailure TcpSystemAction)
    (EngineAction (Fin 1))) :=
  [.produce (onlyStream, .enter (0, 0))]

/-- It looks at its clock after a long pause, and the run ends. -/
def oneOverdue : List (Pipe.Action (Fin 1 × Fleet.StageAction (ℕ × ℕ) SetUpFailure TcpSystemAction)
    (EngineAction (Fin 1))) :=
  [.produce (onlyStream, .step (.client (.tick 750000010))),
    .produce (onlyStream, .step (.client (.tick 750000010))), .recv,
    .own (.join onlyStream .returned), .own .finish]

theorem oneOverdue_exec :
    (((runSystem (tcpTasks oneStream 7) (oneStream.loopConfig 0)).machine.exec
      (runSystem (tcpTasks oneStream 7) (oneStream.loopConfig 0)).machine.init oneEntered).bind
        fun r => ((runSystem (tcpTasks oneStream 7) (oneStream.loopConfig 0)).machine.exec r.1
          oneOverdue).map fun r' =>
            (decide (∀ i, drainsBy oneStream 7 750000010 i (r.1.producer i)),
            (tcpProgress oneStream 7 750000010 (by decide)).left r.1, r'.1.consumer.pc.isOk)) =
      some (true, 15, true) := by
  decide +kernel

end Ipfusch
