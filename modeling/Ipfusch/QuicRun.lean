import Ipfusch.QuicEcho
import Ipfusch.WaitReports

/-!
# A run over QUIC

`run_benchmark` with its QUIC streams, each of which has a connection of its own, and talks to the
server's loop for its stream over it. A stream is set up, or fails to be, and then runs its loop.
`run_stream_quic` returns only when its endpoint is idle, at any time after the loop.

`quicRun_reports` : in every run that returns `Ok`, each stream has sent and reported its packets
one by one until its time was over, and the report counts those of the measurement.
-/

namespace Ipfusch

/-! ## The task of a stream -/

/-- The client with the server's loop, and whether the endpoint is idle. -/
structure QuicTaskState where
  echo : QuicEchoState
  idle : Bool

/-- What can come next. -/
inductive QuicTaskAction
  | step (a : QuicEchoAction)
  /-- `endpoint.wait_idle().await` is complete. The client does not close the connection, so when
  this happens is up to the server and to the connection. -/
  | idle

/-- `run_stream_quic` from the start of its loop, with the server's loop. -/
def quicTask (spec : StreamRunSpec) (start : ℕ) :
    Machine QuicTaskState QuicTaskAction QuicEchoObs where
  init := ⟨(quicEcho spec start).init, false⟩
  step s
    | .step a => (quicEchoStep spec s.echo a).map fun r => ({ s with echo := r.1 }, r.2)
    | .idle =>
      match s.echo.client.pc, s.idle with
      | .done, false => some ({ s with idle := true }, [])
      | _, _ => none

/-- How the task has ended. -/
def QuicTaskState.exit (s : QuicTaskState) : Option StreamExit :=
  match s.echo.client.pc with
  | .done => if s.idle then some .returned else none
  | pc => pc.exit

/-- The event that is sent. -/
def QuicEchoObs.event? (o : QuicEchoObs) : Option PacketEvent :=
  o.client?.bind WaitObs.event?

theorem filterMap_quicEvent? (t : List QuicEchoObs) :
    t.filterMap QuicEchoObs.event? = waitEvents (t.filterMap QuicEchoObs.client?) := by
  rw [waitEvents, List.filterMap_filterMap]
  rfl

theorem QuicTaskState.exit_pc {s : QuicTaskState} {e : StreamExit} (h : s.exit = some e) :
    s.echo.client.pc.exit = some e := by
  unfold QuicTaskState.exit at h
  split at h
  · rename_i hpc
    split_ifs at h
    rw [hpc]
    exact h
  · exact h

/-- A run of the task is a run of its loop. -/
theorem quicTask_reach {spec : StreamRunSpec} {start : ℕ} {t : List QuicEchoObs}
    {s : QuicTaskState} (h : (quicTask spec start).Reach t s) :
    (quicEcho spec start).Reach t s.echo := by
  have hproject := h.project (N := quicEcho spec start) QuicTaskState.echo some rfl
    fun {t s a s' o} _ hstep => ?_
  · rwa [List.filterMap_some] at hproject
  · rw [List.filterMap_some]
    cases a with
    | step a =>
      obtain ⟨⟨echo, o'⟩, hecho, heq⟩ := Option.map_eq_some_iff.mp hstep
      obtain ⟨rfl, rfl⟩ := Prod.mk.inj heq
      exact .inr ⟨a, hecho⟩
    | idle =>
      unfold quicTask at hstep
      dsimp only at hstep
      split at hstep
      · obtain ⟨rfl, rfl⟩ := Prod.mk.inj (Option.some.inj hstep)
        exact .inl ⟨rfl, rfl⟩
      · cases hstep

/-! ## The end of a stream -/

/-- A client that has ended stays so, and reports nothing. -/
theorem quicEchoStep_exit {spec : StreamRunSpec} {s s' : QuicEchoState} {a : QuicEchoAction}
    {o : List QuicEchoObs} (h : quicEchoStep spec s a = some (s', o)) {e : StreamExit}
    (he : s.client.pc.exit = some e) :
    s'.client = s.client ∧ o.filterMap QuicEchoObs.event? = [] := by
  cases quicEchoStep_move h with
  | wait _ | arrive _ _ => exact ⟨rfl, rfl⟩
  | tick client htick =>
    rw [waitTick_exit he] at htick
    cases htick
  | chunk _ _ hpc _ | written _ _ hpc _ | writeFails _ hpc | read _ _ _ _ hpc _
  | readDone _ _ _ hpc _ | lost _ _ _ _ hpc _ _ =>
    rw [hpc] at he
    cases he
  | serverRead _ _ o _ | server _ _ _ o _ _ =>
    rw [filterMap_quicEvent?, filterMap_client_server]
    exact ⟨rfl, rfl⟩

/-- The streams of a run over QUIC, entered at some instants. -/
def quicStreams (cfg : RunConfig) (sessionId : UInt64) (i : Fin cfg.streams.toNat) (start : ℕ) :
    Machine QuicTaskState QuicTaskAction QuicEchoObs :=
  quicTask (cfg.streamSpec sessionId i) start

theorem quic_endsQuietly (cfg : RunConfig) (sessionId : UInt64) :
    EndsQuietly (quicStreams cfg sessionId) QuicEchoObs.event? QuicTaskState.exit := by
  intro i start s a s' o hstep e he
  cases a with
  | step a =>
    obtain ⟨⟨echo, o'⟩, hecho, heq⟩ := Option.map_eq_some_iff.mp hstep
    obtain ⟨rfl, rfl⟩ := Prod.mk.inj heq
    obtain ⟨hclient, hevents⟩ := quicEchoStep_exit hecho (QuicTaskState.exit_pc he)
    refine ⟨?_, hevents⟩
    unfold QuicTaskState.exit at he ⊢
    dsimp only at hclient ⊢
    rw [hclient]
    exact he
  | idle =>
    unfold quicStreams quicTask at hstep
    dsimp only at hstep
    split at hstep
    · rename_i hpc hidle
      rw [QuicTaskState.exit, hpc] at he
      dsimp only at he
      rw [hidle] at he
      cases he
    · cases hstep

/-- The streams as tasks. -/
def quicTasks (cfg : RunConfig) (sessionId : UInt64) :=
  stagedTasks (quicStreams cfg sessionId) QuicEchoObs.event? QuicTaskState.exit
    (quic_endsQuietly cfg sessionId)

/-! ## The report -/

/-- A property that each step of stop and wait keeps is kept by those of the client, whatever the
server and the streams do. -/
theorem WaitInvariant.quicEchoStep {spec : StreamRunSpec}
    {P : ℕ → List QuicObs → WaitState → Prop} (h : WaitInvariant spec P) {s s' : QuicEchoState}
    {a : QuicEchoAction} {t : List QuicObs} {o : List QuicEchoObs}
    (hs : Ipfusch.quicEchoStep spec s a = some (s', o)) (hw : P s.clock t s.client) :
    P s'.clock (t ++ o.filterMap QuicEchoObs.client?) s'.client := by
  cases quicEchoStep_move hs with
  | wait n =>
    rw [List.filterMap_nil, List.append_nil]
    exact h.wait hw (Nat.le_add_right _ _)
  | tick client htick =>
    obtain ⟨hclock, hclient⟩ := QuicEchoState.resume_client spec s client
    rw [List.filterMap_nil, List.append_nil, hclock, hclient]
    exact h.tick hw htick
  | chunk _ _ _ _ | read _ _ _ _ _ _ =>
    rw [List.filterMap_nil, List.append_nil]
    exact hw
  | written _ _ hpc _ => exact h.sent hw hpc
  | writeFails _ hpc =>
    rw [List.filterMap_nil, List.append_nil]
    exact h.sendFails hw hpc
  | serverRead _ _ o _ | server _ _ _ o _ _ =>
    rw [filterMap_client_server, List.append_nil]
    exact hw
  | arrive _ _ => exact h.arrived hw _ _
  | readDone _ _ _ hpc _ =>
    rw [filterMap_client]
    exact h.onHeader hw hpc s.got
  | lost _ _ _ _ hpc _ _ => exact h.report hw hpc nofun

/-- So it holds of the task. -/
theorem quicTask_invariant {spec : StreamRunSpec} {start : ℕ} {t : List QuicEchoObs}
    {s : QuicTaskState} (h : (quicTask spec start).Reach t s)
    {P : ℕ → List QuicObs → WaitState → Prop} (hP : WaitInvariant spec P) :
    P s.echo.clock (t.filterMap QuicEchoObs.client?) s.echo.client :=
  (quicTask_reach h).invariant
    (I := fun t s => P s.clock (t.filterMap QuicEchoObs.client?) s.client) (hP.start start)
    fun _ hw hs => by
      rw [List.filterMap_append]
      exact hP.quicEchoStep hs hw

/-- The events of a stream are marked with its number. -/
theorem quicTask_marked {spec : StreamRunSpec} {start : ℕ} {t : List QuicEchoObs}
    {s : QuicTaskState} (h : (quicTask spec start).Reach t s) :
    ∀ e ∈ t.filterMap QuicEchoObs.event?, e.streamId = spec.streamId := by
  intro e he
  rw [filterMap_quicEvent?] at he
  obtain ⟨p, -, hreported⟩ := (quicTask_invariant h (waitLog spec)).reported_of_event he
  exact hreported.streamId

/-- The clock of a stream that was set up. -/
def quicClock : Fleet.Stage ℕ SetUpFailure QuicTaskState → ℕ
  | .running _ s => s.echo.clock
  | _ => 0

section Returned

variable {cfg : RunConfig} {sessionId : UInt64} {started : ℕ}
  {t : List (Pipe.Obs (Fin cfg.streams.toNat × QuicEchoObs) EngineObs)}
  {s : Pipe.State (Fin cfg.streams.toNat → Fleet.Stage ℕ SetUpFailure QuicTaskState) PacketEvent
    (EngineState (Fin cfg.streams.toNat))}

/-- If `run_benchmark` returns `Ok`, then each stream has left its loop. -/
theorem quicRun_done
    (h : (runSystem (quicTasks cfg sessionId) (cfg.loopConfig started)).machine.Reach t s)
    (hpc : s.consumer.pc = .returned (.ok ())) :
    WaitRunDone cfg sessionId (fun i => quicClock (s.producer i))
      (fun i => (streamPart t i).filterMap QuicEchoObs.client?)
      (s.consumer.loop.report cfg).toRunReport := by
  obtain ⟨hstreams, hreport⟩ := stagedTasks_reports (fun hr => quicTask_marked hr) h hpc
  simp only [filterMap_quicEvent?] at hreport
  refine ⟨hreport, fun i => ?_⟩
  obtain ⟨start, c, hrunning, hexit, hreach⟩ := hstreams i
  rw [hrunning]
  exact ⟨c.echo.client, WaitPc.exit_eq_returned (QuicTaskState.exit_pc hexit),
    fun P hP => quicTask_invariant hreach hP⟩

/-- In every run over QUIC that returns `Ok`, in whatever chunks and at whatever times the streams
carry their bytes, whichever reads fail, and whatever the engine and the servers do in between :
each stream has sent packets numbered from one until its time was over, and reported each of them
once and in order. The report counts for each stream the packets that it sent
after the warm-up and before the end, and at most two others, each as received or lost, and none as
reordered. All streams together are the aggregate. -/
theorem quicRun_reports
    (h : (runSystem (quicTasks cfg sessionId) (cfg.loopConfig started)).machine.Reach t s)
    (hpc : s.consumer.pc = .returned (.ok ())) :
    WaitRunReported cfg sessionId (fun i => quicClock (s.producer i))
      (fun i => (streamPart t i).filterMap QuicEchoObs.client?)
      (s.consumer.loop.report cfg).toRunReport :=
  (quicRun_done h hpc).waitRunReported

end Returned

/-- One stream of ten nanoseconds. -/
def oneQuicStream : RunConfig where
  transport := .quic
  streams := 1
  duration := 10
  warmup := 0
  payloadBytes := 1
  rate := .bps 8000000000
  token := none
  interval := 1

/-- The first packet is echoed, the second one is not. -/
def oneQuicRun : List (Pipe.Action (Fin 1 × Fleet.StageAction ℕ SetUpFailure QuicTaskAction)
    (EngineAction (Fin 1))) :=
  [[.produce (onlyStream, .enter 0)],
    [.replicate 4 .tick, [.write 20, .serverRead 20, .write 21, .tick, .tick, .serverRead 20,
      .serverNext, .serverRead 1, .serverNext, .serverWrite 40, .arrive 40, .read 40, .wait 2,
      .readDone], .replicate 3 .tick, [.write 41, .tick, .tick, .wait 750000000, .elapsed, .tick,
      .serverNext, .serverRead 40]].flatten.map fun a => .produce (onlyStream, .step (.step a)),
    [.produce (onlyStream, .step .idle), .recv, .own (.tick 20), .recv, .recv,
      .own (.join onlyStream .returned), .own .finish]].flatten

theorem oneQuicRun_exec :
    ((runSystem (quicTasks oneQuicStream 7) (oneQuicStream.loopConfig 0)).machine.exec
      (runSystem (quicTasks oneQuicStream 7) (oneQuicStream.loopConfig 0)).machine.init
        oneQuicRun).map (fun r => (r.1.consumer.pc.isOk,
          (r.1.consumer.loop.report oneQuicStream).aggregate.packetsSent)) = some (true, 2) := by
  decide +kernel

theorem quicRun_reports_oneStream :
    ∃ t s, (runSystem (quicTasks oneQuicStream 7) (oneQuicStream.loopConfig 0)).machine.Reach t s ∧
      s.consumer.pc = .returned (.ok ()) ∧
      ∑ i, ((waitEvents ((streamPart t i).filterMap QuicEchoObs.client?)).filter
        PacketEvent.measured).length = 2 := by
  obtain ⟨⟨s, t⟩, hexec, hshow⟩ := Option.map_eq_some_iff.mp oneQuicRun_exec
  have hreach := Machine.reach_exec hexec
  obtain ⟨hmatch, hcount⟩ := Prod.mk.inj hshow
  have hpc := EnginePc.isOk_iff.mp hmatch
  have hreports := quicRun_reports hreach hpc
  exact ⟨t, s, hreach, hpc, hreports.packetsSent.symm.trans hcount⟩

end Ipfusch
