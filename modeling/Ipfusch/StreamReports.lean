import Ipfusch.Fleet
import Ipfusch.RunSystem

/-!
# The streams of a run in its report

The statistics of a stream in the report are those of its measured events (`stats_streamReported`),
and a stream is listed if it has one (`exists_stats_iff`).

`StreamTasks.reports` : if the tasks mark their events with their numbers, then in a run that
returns `Ok` the report accounts for what each task has sent, and for nothing else.
`stagedTasks` are streams that share nothing : each is set up, which can fail, and then runs its
loop.
-/

namespace Ipfusch

/-! ## The statistics of a stream -/

/-- The statistics of a stream are those of its measured events. -/
structure StreamReported (events : List PacketEvent) (stats : StreamStats) : Prop where
  packetsSent : stats.packetsSent = (events.filter PacketEvent.measured).length
  packetsAcked : stats.packetsAcked =
    (events.filter PacketEvent.measured).countP fun e => e.recvMonoNs.isSome
  packetsLost : stats.packetsLost =
    (events.filter PacketEvent.measured).countP fun e => e.recvMonoNs.isNone
  packetsReordered : stats.packetsReordered =
    overtaken ((events.filter PacketEvent.measured).filterMap PacketEvent.ackedSeq)
  bytes : stats.bytes = ((events.filter PacketEvent.measured).map PacketEvent.bytes).sum

theorem length_filterMap_ackedSeq (events : List PacketEvent) :
    (events.filterMap PacketEvent.ackedSeq).length = events.countP fun e => e.recvMonoNs.isSome := by
  rw [List.length_filterMap_eq_countP]
  refine List.countP_congr fun e _ => ?_
  rw [PacketEvent.ackedSeq, Option.isSome_map]

theorem stats_streamReported {cfg : LoopConfig} {inputs : List LoopInput} {stats : StreamStats}
    (h : stats ∈ (runBenchmark cfg inputs).streams) :
    StreamReported (eventsOf stats.streamId inputs) stats := by
  rw [(runBenchmark_eq cfg inputs).1] at h
  obtain ⟨⟨id, acc⟩, hmem, rfl⟩ := List.mem_map.mp h
  have hacc := (conserves_foldl (measuredEvents inputs)).streams hmem
  rw [ofKey_measuredEvents] at hacc
  refine ⟨hacc.packetsSent, ?_, hacc.packetsLost, hacc.packetsReordered, hacc.bytes⟩
  rw [← length_filterMap_ackedSeq]
  exact hacc.packetsAcked

/-- A stream is in the report if it has a measured event. -/
theorem exists_stats_iff (cfg : LoopConfig) (inputs : List LoopInput) (id : UInt32) :
    (∃ stats ∈ (runBenchmark cfg inputs).streams, stats.streamId = id) ↔
      ∃ e ∈ eventsOf id inputs, e.measured = true := by
  have hkeys := map_streamId_streams cfg inputs
  constructor
  · rintro ⟨stats, hstats, rfl⟩
    have hmem := List.mem_map_of_mem (f := StreamStats.streamId) hstats
    rw [hkeys, KeyedFold.mem_keys_fold] at hmem
    obtain ⟨e, he, hid⟩ := hmem
    obtain ⟨he, hm⟩ := List.mem_filter.mp he
    exact ⟨e, List.mem_filter.mpr ⟨he, decide_eq_true hid⟩, hm⟩
  · rintro ⟨e, he, hm⟩
    obtain ⟨he, hid⟩ := List.mem_filter.mp he
    refine List.mem_map.mp ?_
    rw [hkeys, KeyedFold.mem_keys_fold]
    exact ⟨e, List.mem_filter.mpr ⟨he, hm⟩, of_decide_eq_true hid⟩

/-! ## The streams of a run -/

/-- What a stream of a run is to do. -/
def RunConfig.streamSpec (cfg : RunConfig) (sessionId : UInt64) (streamId : ℕ) :
    StreamRunSpec where
  sessionId := sessionId
  streamId := UInt32.ofNat streamId
  transport := cfg.transport
  duration := cfg.duration
  warmup := cfg.warmup
  payloadBytes := cfg.payloadBytes
  rateBps := perStreamRate (resolveRate cfg.rate cfg.transport).1 cfg.streams
  token := cfg.token
  timeout := 750000000

theorem RunConfig.streamSpecs_eq (cfg : RunConfig) (sessionId : UInt64) :
    cfg.streamSpecs sessionId = (List.range cfg.streams.toNat).map (cfg.streamSpec sessionId) :=
  rfl

/-- The report accounts for the events of some streams, and for nothing else. -/
structure RunReported {n : ℕ} (events : Fin n → List PacketEvent) (report : RunReport) : Prop where
  stats : ∀ stats ∈ report.streams, ∃ i : Fin n, stats.streamId = UInt32.ofNat i ∧
    StreamReported (events i) stats
  listed : ∀ i, (∃ e ∈ events i, e.measured = true) →
    ∃ stats ∈ report.streams, stats.streamId = UInt32.ofNat i
  packetsSent : report.aggregate.packetsSent =
    ∑ i, ((events i).filter PacketEvent.measured).length
  bytes : report.aggregate.bytes =
    ∑ i, (((events i).filter PacketEvent.measured).map PacketEvent.bytes).sum

/-- The numbers of the streams of a run are different. -/
theorem ofNat_inj_streams {streams : UInt16} {i j : Fin streams.toNat}
    (h : UInt32.ofNat i = UInt32.ofNat j) : i = j := by
  have hlt : ∀ k : Fin streams.toNat, (k : ℕ) < UInt32.size := fun k =>
    (k.2.trans streams.toNat_lt).trans (by decide)
  have hnat := congrArg UInt32.toNat h
  rw [UInt32.toNat_ofNat_of_lt' (hlt i), UInt32.toNat_ofNat_of_lt' (hlt j)] at hnat
  exact Fin.ext hnat

/-- A stream's part of a run. -/
def streamPart {n : ℕ} {ω : Type} (t : List (Pipe.Obs (Fin n × ω) EngineObs)) (i : Fin n) :
    List ω :=
  Fleet.part i (Pipe.produced t)

section Tasks

variable {σ α ω : Type} {streams : UInt16} {S : StreamTasks (Fin streams.toNat) σ α ω}

/-- What a task has sent. -/
def StreamTasks.eventsFrom (S : StreamTasks (Fin streams.toNat) σ α ω)
    (t : List (Pipe.Obs (Fin streams.toNat × ω) EngineObs)) (i : Fin streams.toNat) :
    List PacketEvent :=
  (streamPart t i).filterMap S.event

/-- The measured events, added up. -/
theorem sum_measured {w : PacketEvent → ℕ} (events : List PacketEvent) :
    ((events.filter PacketEvent.measured).map w).sum =
      (events.map fun e => if e.measured then w e else 0).sum := by
  induction events with
  | nil => rfl
  | cons e events ih => cases hm : e.measured <;> simp [hm, ih]

/-- Each event of a task is marked with its number. -/
def StreamTasks.Marked (S : StreamTasks (Fin streams.toNat) σ α ω) : Prop :=
  ∀ {t s}, S.machine.Reach t s → ∀ o ∈ t, ∀ e ∈ S.event o.2, e.streamId = UInt32.ofNat o.1

variable {cfg : LoopConfig} {t : List (Pipe.Obs (Fin streams.toNat × ω) EngineObs)}
  {s : Pipe.State σ PacketEvent (EngineState (Fin streams.toNat))}

/-- What `select!` took from a stream is what its task sent. -/
theorem StreamTasks.eventsOf_runInputs (hmarked : S.Marked)
    (h : (runSystem S cfg).machine.Reach t s)
    (hsent : sentEvents S t = (runInputs t).filterMap LoopInput.event?)
    (i : Fin streams.toNat) : eventsOf (UInt32.ofNat i) (runInputs t) = S.eventsFrom t i := by
  rw [eventsOf, ← hsent]
  exact Fleet.filter_filterMap (fun i : Fin streams.toNat => UInt32.ofNat i)
    (hmarked (Pipe.producer_reach h)) fun j => ofNat_inj_streams

/-- Whatever the streams do : if `run_benchmark` returns `Ok`, then its report accounts for what
each task has sent. -/
theorem StreamTasks.reports (hmarked : S.Marked) (h : (runSystem S cfg).machine.Reach t s)
    (hsent : sentEvents S t = (runInputs t).filterMap LoopInput.event?) :
    RunReported (S.eventsFrom t) (runBenchmark cfg (runInputs t)) := by
  have hevents := StreamTasks.eventsOf_runInputs hmarked h hsent
  have htotals : (runBenchmark cfg (runInputs t)).aggregate = _ := (runBenchmark_eq cfg _).2.1
  have hsum : ∀ w : PacketEvent → ℕ, ((measuredEvents (runInputs t)).map w).sum =
      ∑ i, (((S.eventsFrom t i).filter PacketEvent.measured).map w).sum := by
    intro w
    rw [measuredEvents, ← hsent, sum_measured, sentEvents, Fleet.sum_filterMap]
    exact Finset.sum_congr rfl fun i _ => (sum_measured _).symm
  refine ⟨fun stats hstats => ?_, fun i hi => ?_, ?_, ?_⟩
  · have hex := (exists_stats_iff cfg (runInputs t) stats.streamId).mp ⟨stats, hstats, rfl⟩
    obtain ⟨e, he, -⟩ := hex
    obtain ⟨he, hid⟩ := List.mem_filter.mp he
    rw [← hsent] at he
    obtain ⟨o, ho, heo⟩ := List.mem_filterMap.mp he
    have hmark := hmarked (Pipe.producer_reach h) o ho e heo
    have hstreamId : stats.streamId = UInt32.ofNat o.1 := (of_decide_eq_true hid).symm.trans hmark
    refine ⟨o.1, hstreamId, ?_⟩
    rw [← hevents, ← hstreamId]
    exact stats_streamReported hstats
  · rw [exists_stats_iff, hevents]
    exact hi
  · have hlen := hsum fun _ => 1
    simp only [List.map_const', List.sum_replicate, nsmul_eq_mul, mul_one, Nat.cast_id] at hlen
    rw [htotals]
    simp only [buildAggregate, totals_foldl, hlen]
  · rw [htotals]
    simp only [buildAggregate, totals_foldl, hsum]

end Tasks

/-! ## Streams that share nothing -/

/-- Why a stream does not come to its loop. -/
abbrev SetUpFailure : Type :=
  { e : StreamExit // e ≠ .returned }

section Staged

variable {ρ σ α ω : Type} {streams : UInt16}

/-- How a stream has ended. -/
def stageExit (exit : σ → Option StreamExit) : Fleet.Stage ρ SetUpFailure σ → Option StreamExit
  | .before => none
  | .failed e => some e.1
  | .running _ s => exit s

variable (M : Fin streams.toNat → ρ → Machine σ α ω) (event : ω → Option PacketEvent)
  (exit : σ → Option StreamExit)

/-- A loop that has ended stays so, and sends nothing. -/
def EndsQuietly : Prop :=
  ∀ {i p s a s' o}, (M i p).step s a = some (s', o) → ∀ {e}, exit s = some e →
    exit s' = some e ∧ o.filterMap event = []

theorem staged_endsQuietly (hquiet : EndsQuietly M event exit) {i : Fin streams.toNat}
    {s s' : Fleet.Stage ρ SetUpFailure σ} {a : Fleet.StageAction ρ SetUpFailure α} {o : List ω}
    (h : (Fleet.staged (M i)).step s a = some (s', o)) {e : StreamExit}
    (he : stageExit exit s = some e) : stageExit exit s' = some e ∧ o.filterMap event = [] := by
  rcases Fleet.staged_cases h with ⟨rfl, -, -⟩ | ⟨p, c, a, c', rfl, rfl, hc⟩
  · cases he
  · exact hquiet hc he

/-- Streams that share nothing, as tasks. -/
def stagedTasks (hquiet : EndsQuietly M event exit) :
    StreamTasks (Fin streams.toNat) (Fin streams.toNat → Fleet.Stage ρ SetUpFailure σ)
      (Fin streams.toNat × Fleet.StageAction ρ SetUpFailure α) ω where
  machine := Fleet.machine fun i => Fleet.staged (M i)
  handles := List.finRange streams.toNat
  event := event
  ended s i := stageExit exit (s i)
  ended_step := by
    intro s a s' o hstep i e he
    obtain ⟨c, o', hc, rfl, rfl⟩ := Fleet.step_cases hstep
    by_cases hi : i = a.1
    · subst hi
      rw [Function.update_self]
      exact (staged_endsQuietly M event exit hquiet hc he).1
    · rw [Function.update_of_ne hi]
      exact he
  quiet := by
    intro s a s' o hstep i e he ob hob
    obtain ⟨c, o', hc, rfl, rfl⟩ := Fleet.step_cases hstep
    obtain ⟨ob', hmem, heq⟩ := List.mem_map.mp hob
    obtain ⟨rfl, rfl⟩ := Prod.mk.inj heq
    have hnil := (staged_endsQuietly M event exit hquiet hc he).2
    exact List.filterMap_eq_nil_iff.mp hnil ob' hmem
  mem_handles := List.mem_finRange

variable {M event exit} {hquiet : EndsQuietly M event exit} {cfg : LoopConfig}
  {t : List (Pipe.Obs (Fin streams.toNat × ω) EngineObs)}
  {s : Pipe.State (Fin streams.toNat → Fleet.Stage ρ SetUpFailure σ) PacketEvent
    (EngineState (Fin streams.toNat))}

theorem stagedTasks_marked (hmarked : ∀ {i p t s}, (M i p).Reach t s →
    ∀ e ∈ t.filterMap event, e.streamId = UInt32.ofNat i) :
    (stagedTasks M event exit hquiet).Marked := by
  intro t s h o ho e he
  have hpart : o.2 ∈ Fleet.part o.1 t :=
    List.mem_filterMap.mpr ⟨o, ho, if_pos rfl⟩
  have hreach := Fleet.staged_reach (Fleet.reach_part h o.1)
  cases hs : s o.1 with
  | before | failed _ =>
    rw [hs] at hreach
    rw [show Fleet.part o.1 t = [] from hreach] at hpart
    cases hpart
  | running p c =>
    rw [hs] at hreach
    exact hmarked (show (M o.1 p).Reach _ c from hreach) e (List.mem_filterMap.mpr ⟨_, hpart, he⟩)

/-- If `run_benchmark` returns `Ok`, then each stream was set up and its loop has ended, and the
report accounts for what it has sent. -/
theorem stagedTasks_reports {cfg : RunConfig} {started : ℕ}
    (hmarked : ∀ {i p t s}, (M i p).Reach t s →
      ∀ e ∈ t.filterMap event, e.streamId = UInt32.ofNat i)
    (h : (runSystem (stagedTasks M event exit hquiet) (cfg.loopConfig started)).machine.Reach t s)
    (hpc : s.consumer.pc = .returned (.ok ())) :
    (∀ i, ∃ p c, s.producer i = .running p c ∧ exit c = some .returned ∧
      (M i p).Reach (streamPart t i) c) ∧
    RunReported (fun i => (streamPart t i).filterMap event)
      (s.consumer.loop.report cfg).toRunReport := by
  obtain ⟨hsent, ends, hends, hresult⟩ := returned_cases h hpc
  have hended := (joinHandles_ends hends).mp hresult.symm
  refine ⟨fun i => ?_, ?_⟩
  · have hreach := Fleet.staged_reach (Fleet.reach_part (Pipe.producer_reach h) i)
    have hi : stageExit exit (s.producer i) = some .returned := hended i
    cases hs : s.producer i with
    | before =>
      rw [hs] at hi
      cases hi
    | failed e =>
      rw [hs] at hi
      exact absurd (Option.some.inj hi) e.2
    | running p c =>
      rw [hs] at hi hreach
      exact ⟨p, c, rfl, hi, hreach⟩
  · rw [report_eq h]
    exact StreamTasks.reports (stagedTasks_marked hmarked) h hsent

end Staged

/-- The stream of a run that has one. -/
def onlyStream : Fin 1 := 0

end Ipfusch
