import Ipfusch.UdpFleet
import Ipfusch.WaitReports

/-!
# A run over UDP

`run_benchmark` with its UDP streams, all of which talk to one `run_udp_server` over a network that
may drop, delay, duplicate and reorder datagrams, and which serves other peers, too.

`udpRun_reports` : in every run that returns `Ok`, each stream has sent and reported its packets one
by one until its time was over, the report counts those of the measurement, and what it counts as
received was echoed by the server.
-/

namespace Ipfusch

/-! ## The streams -/

/-- How the client has ended. -/
def UdpClient.exit : UdpClient → Option StreamExit
  | .data w => w.pc.exit
  | .failed => some .failed
  | _ => none

theorem UdpClient.exit_eq_returned {c : UdpClient} (h : c.exit = some .returned) :
    ∃ w, c = .data w ∧ w.pc = .done := by
  cases c with
  | data w => exact ⟨w, rfl, WaitPc.exit_eq_returned h⟩
  | hello | arm | awaitAck _ | ready | failed => cases h

section Run

variable (sha256 : List UInt8 → Digest) {Peer : Type} [DecidableEq Peer]

/-- A client that has ended stays so, and reports nothing. -/
theorem udpMove_exit {token : Option String} {spec : StreamRunSpec} {me : Peer}
    {s s' : UdpState Peer} {a : UdpAction Peer} {o : List UdpObs}
    (h : UdpMove sha256 token spec me s a s' o) {e : StreamExit} (he : s.client.exit = some e) :
    s'.client = s.client ∧ waitEvents o = [] := by
  cases h with
  | wait _ | arrive _ _ _ => exact ⟨rfl, rfl⟩
  | serve i frame sendOk _ _ =>
    exact ⟨(onServe_client sha256 token me me frame sendOk s).2.1, rfl⟩
  | serveOther peer frame sendOk _ _ =>
    exact ⟨(onServe_client sha256 token me peer frame sendOk s).2.1, rfl⟩
  | tick client frames o htick =>
    cases hclient : s.client with
    | hello | arm | awaitAck _ | ready =>
      rw [hclient] at he
      cases he
    | failed =>
      rw [hclient] at htick
      cases htick
    | data w =>
      rw [hclient] at htick he
      cases udpTick_cases sha256 htick with
      | sent _ _ hpc =>
        rw [UdpClient.exit, hpc] at he
        cases he
      | loop _ w' hloop =>
        rw [waitTick_exit he] at hloop
        cases hloop
  | helloFails hclient | ack _ _ _ hclient _ | ackFails _ _ hclient =>
    rw [hclient] at he
    cases he
  | sendFails _ _ hclient hpc | took _ _ _ _ _ _ hclient hpc _ | lost _ _ _ _ _ hclient hpc =>
    rw [hclient, UdpClient.exit, hpc] at he
    cases he

variable (cfg : RunConfig) (sessionId : UInt64) (token : Option String)
  (peer : Fin cfg.streams.toNat ↪ Peer)

/-- The streams of a run and the server. -/
def udpStreams : Machine (UdpFleet (Fin cfg.streams.toNat) Peer)
    (Fin cfg.streams.toNat × UdpAction Peer) (Fin cfg.streams.toNat × UdpObs) :=
  udpFleet sha256 token (fun i => cfg.streamSpec sessionId i) peer

variable {cfg sessionId token peer}

/-- A run of all streams is a run of each. -/
theorem udpStreams_reach {t : List (Fin cfg.streams.toNat × UdpObs)}
    {s : UdpFleet (Fin cfg.streams.toNat) Peer}
    (hr : (udpStreams sha256 cfg sessionId token peer).Reach t s) (i : Fin cfg.streams.toNat) :
    (udpSystem sha256 token (cfg.streamSpec sessionId i) (peer i)).Reach (Fleet.part i t)
      (s.view i) :=
  udpFleet_reach sha256 hr i

theorem udpStreams_exit {s s' : UdpFleet (Fin cfg.streams.toNat) Peer}
    {a : Fin cfg.streams.toNat × UdpAction Peer} {o : List (Fin cfg.streams.toNat × UdpObs)}
    (hs : (udpStreams sha256 cfg sessionId token peer).step s a = some (s', o))
    {i : Fin cfg.streams.toNat} {e : StreamExit} (he : (s.member i).client.exit = some e) :
    (s'.member i).client.exit = some e ∧ ∀ ob, (i, ob) ∈ o → ob.event? = none := by
  obtain ⟨-, u, o', hstep, rfl, rfl⟩ := udpFleet_cases sha256 hs
  by_cases hi : i = a.1
  · subst hi
    obtain ⟨hclient, hevents⟩ := udpMove_exit sha256 (udpStep_move sha256 hstep) he
    refine ⟨?_, fun ob hob => ?_⟩
    · have hself := congrArg UdpState.client (UdpFleet.view_put_self s a.1 u)
      rw [← hself] at hclient
      exact (congrArg UdpClient.exit hclient).trans he
    · obtain ⟨ob', hob', heq⟩ := List.mem_map.mp hob
      obtain ⟨-, rfl⟩ := Prod.mk.inj heq
      exact List.filterMap_eq_nil_iff.mp hevents ob' hob'
  · refine ⟨?_, fun ob hob => ?_⟩
    · have hother := congrArg UdpState.client (UdpFleet.view_put_of_ne s hi u)
      exact (congrArg UdpClient.exit hother).trans he
    · obtain ⟨_, -, heq⟩ := List.mem_map.mp hob
      exact absurd (Prod.mk.inj heq).1.symm hi

variable (cfg sessionId token peer)

/-- The streams as tasks. -/
def udpTasks : StreamTasks (Fin cfg.streams.toNat) (UdpFleet (Fin cfg.streams.toNat) Peer)
    (Fin cfg.streams.toNat × UdpAction Peer) UdpObs where
  machine := udpStreams sha256 cfg sessionId token peer
  handles := List.finRange cfg.streams.toNat
  event := WaitObs.event?
  ended s i := (s.member i).client.exit
  ended_step hs _ _ he := (udpStreams_exit sha256 hs he).1
  quiet hs _ _ he _ hob := (udpStreams_exit sha256 hs he).2 _ hob
  mem_handles := List.mem_finRange

variable {cfg sessionId token peer}

/-- The events of a stream are marked with its number. -/
theorem udpTasks_marked : (udpTasks sha256 cfg sessionId token peer).Marked := by
  intro t s hr o ho e he
  have hpart : e ∈ waitEvents (Fleet.part o.1 t) :=
    List.mem_filterMap.mpr ⟨o.2, List.mem_filterMap.mpr ⟨o, ho, if_pos rfl⟩, he⟩
  have hreach := udpStreams_reach sha256 hr o.1
  rcases (waitLog (cfg.streamSpec sessionId o.1)).udp_reach sha256 hreach with
    ⟨w, -, hlog⟩ | ⟨-, ht⟩
  · obtain ⟨p, -, hreported⟩ := hlog.reported_of_event hpart
    exact hreported.streamId
  · obtain ⟨ob, hob, heq⟩ := List.mem_filterMap.mp hpart
    obtain ⟨_, _, rfl⟩ := ht ob hob
    cases heq

section Returned

variable {started : ℕ} {t : List (Pipe.Obs (Fin cfg.streams.toNat × UdpObs) EngineObs)}
  {s : Pipe.State (UdpFleet (Fin cfg.streams.toNat) Peer) PacketEvent
    (EngineState (Fin cfg.streams.toNat))}

/-- If `run_benchmark` returns `Ok`, then each stream has left its loop. -/
theorem udpRun_done
    (h : (runSystem (udpTasks sha256 cfg sessionId token peer)
      (cfg.loopConfig started)).machine.Reach t s)
    (hpc : s.consumer.pc = .returned (.ok ())) :
    WaitRunDone cfg sessionId (fun _ => s.producer.clock) (streamPart t)
      (s.consumer.loop.report cfg).toRunReport := by
  obtain ⟨hsent, ends, hends, hresult⟩ := returned_cases h hpc
  have hended := (joinHandles_ends hends).mp hresult.symm
  refine ⟨?_, fun i => ?_⟩
  · rw [report_eq h]
    exact StreamTasks.reports (udpTasks_marked sha256) h hsent
  · obtain ⟨w, hw, hdone⟩ := UdpClient.exit_eq_returned (hended i)
    refine ⟨w, hdone, fun P hP => ?_⟩
    have hreach := udpStreams_reach sha256 (Pipe.producer_reach h) i
    obtain ⟨w', hw', hlog⟩ := (hP.udp_reach sha256 hreach).resolve_right fun hdata => hdata.1 w hw
    obtain rfl := UdpClient.data.inj (hw.symm.trans hw')
    exact hlog

/-- In every run over UDP that returns `Ok`, whatever the network, the other peers, the engine and
the streams do in between : each stream has sent packets numbered from one until its time was over,
and reported each of them once and in order. The report counts for each stream the packets that it
sent after the warm-up and before the end, and at most two others, each as received or lost, and
none as reordered. All streams together are the aggregate. For each packet that is reported as
received the server has sent the echo. -/
theorem udpRun_reports
    (h : (runSystem (udpTasks sha256 cfg sessionId token peer)
      (cfg.loopConfig started)).machine.Reach t s)
    (hpc : s.consumer.pc = .returned (.ok ())) :
    WaitRunReported cfg sessionId (fun _ => s.producer.clock) (streamPart t)
      (s.consumer.loop.report cfg).toRunReport ∧
    ∀ i, ∀ e ∈ waitEvents (streamPart t i), e.recvMonoNs ≠ none → ∃ sendMonoNs,
      packetEcho (cfg.streamSpec sessionId i) e.seq sendMonoNs ∈ (s.producer.member i).toClient := by
  refine ⟨(udpRun_done sha256 h hpc).waitRunReported, fun i e he hrecv => ?_⟩
  have hreach := udpStreams_reach sha256 (Pipe.producer_reach h) i
  exact (udpExchange_reach sha256 hreach).acked e he hrecv

end Returned

end Run

/-- One stream of ten nanoseconds. -/
def oneUdpStream : RunConfig where
  transport := .udp
  streams := 1
  duration := 10
  warmup := 0
  payloadBytes := 1
  rate := .bps 8000000000
  token := some "secret"
  interval := 1

/-- The only client of a server with the same token. -/
def oneUdpTask :
    StreamTasks (Fin 1) (UdpFleet (Fin 1) (Fin 1)) (Fin 1 × UdpAction (Fin 1)) UdpObs :=
  udpTasks noHash oneUdpStream 7 (some "secret") (Function.Embedding.refl _)

/-- The first packet is echoed, the second one is lost. -/
def oneUdpRun : List (Pipe.Action (Fin 1 × UdpAction (Fin 1)) (EngineAction (Fin 1))) :=
  [[.tick, .tick, .serve 0 true, .arrive 0, .recv].map fun a => .produce (onlyStream, a),
    List.replicate 8 (.produce (onlyStream, .tick)),
    [.serve 1 true, .wait 2, .arrive 1, .recv].map fun a => .produce (onlyStream, a),
    List.replicate 6 (.produce (onlyStream, .tick)),
    [.wait 750000000, .elapsed, .tick].map fun a => .produce (onlyStream, a),
    [.recv, .own (.tick 20), .recv, .recv, .own (.join onlyStream .returned), .own .finish]].flatten

theorem oneUdpRun_exec :
    ((runSystem oneUdpTask (oneUdpStream.loopConfig 0)).machine.exec
      (runSystem oneUdpTask (oneUdpStream.loopConfig 0)).machine.init oneUdpRun).map
        (fun r => (r.1.consumer.pc.isOk,
          (r.1.consumer.loop.report oneUdpStream).aggregate.packetsSent)) = some (true, 2) := by
  decide +kernel

theorem udpRun_reports_oneStream :
    ∃ t s, (runSystem oneUdpTask (oneUdpStream.loopConfig 0)).machine.Reach t s ∧
      s.consumer.pc = .returned (.ok ()) ∧
      ∑ i, ((waitEvents (streamPart t i)).filter PacketEvent.measured).length = 2 := by
  obtain ⟨⟨s, t⟩, hexec, hshow⟩ := Option.map_eq_some_iff.mp oneUdpRun_exec
  have hreach := Machine.reach_exec hexec
  obtain ⟨hmatch, hcount⟩ := Prod.mk.inj hshow
  have hpc := EnginePc.isOk_iff.mp hmatch
  have hreports := udpRun_reports noHash hreach hpc
  exact ⟨t, s, hreach, hpc, hreports.1.packetsSent.symm.trans hcount⟩

end Ipfusch
