import Ipfusch.Pipe
import Ipfusch.Sweep
import Ipfusch.Windows
import Mathlib.Data.Fin.VecNotation

/-!
# A run of the benchmark

`run_benchmark` from its spawned streams to the report : the stream tasks and the engine, joined
by the event channel. The engine takes events and timer ticks in any order until all tasks have
dropped their senders and the channel is empty. Then it joins the tasks in the order in which they
were spawned.

The tasks are a parameter (`StreamTasks`) : one machine that runs all of them, with whatever they
talk to. `runSystem_reports` : whatever the tasks do and in whatever order things happen, each
event sent is counted once and in its place, the intervals sent to `progress_tx` are those of the
report, and there is a report exactly if all tasks returned `Ok`. `runSystem_returns` : once
all tasks have ended, only a bounded number of steps is left until `run_benchmark` returns.
-/

namespace Ipfusch

/-! ## The engine -/

/-- How a stream task ended. -/
inductive StreamExit
  | returned
  /-- `run_stream` returned an error. -/
  | failed
  | panicked
  deriving DecidableEq, Repr

/-- Why `run_benchmark` returns an error. -/
inductive RunError
  | join
  | execution
  deriving DecidableEq, Repr

/-- The context of the error. -/
def RunError.context : RunError → String
  | .join => "stream join error"
  | .execution => "stream execution failed"

/-- `handle.await.context("stream join error")?.context("stream execution failed")?` -/
def StreamExit.await : StreamExit → Except RunError Unit
  | .returned => .ok ()
  | .failed => .error .execution
  | .panicked => .error .join

/-- `for handle in handles` -/
def joinHandles : List StreamExit → Except RunError Unit
  | [] => .ok ()
  | ended :: ends => do
    ended.await
    joinHandles ends

/-- Where `run_benchmark` is. -/
inductive EnginePc (ι : Type)
  /-- `tokio::select!` -/
  | looping
  /-- `for handle in handles`, with these handles left. -/
  | joining (handles : List ι)
  | returned (result : Except RunError Unit)

/-- The variables of the engine. -/
structure EngineState (ι : Type) where
  pc : EnginePc ι
  clock : ℕ
  loop : LoopState

/-- What can come next, but for events. -/
inductive EngineAction (ι : Type)
  /-- A tick of the interval timer, with the clock read after it. -/
  | tick (now : ℕ)
  /-- The task of a handle has ended. -/
  | join (handle : ι) (ended : StreamExit)
  /-- There is no other handle. -/
  | finish

/-- What the engine shows. -/
inductive EngineObs
  /-- What `select!` took. -/
  | input (input : LoopInput)
  /-- `tx.send(interval.clone())` -/
  | progress (interval : IntervalStats)

/-- What `select!` took. -/
def EngineObs.input? : EngineObs → Option LoopInput
  | .input i => some i
  | .progress _ => none

/-- The interval that is sent. -/
def EngineObs.progress? : EngineObs → Option IntervalStats
  | .input _ => none
  | .progress interval => some interval

/-- The event that was received. -/
def EngineObs.event? (o : EngineObs) : Option PacketEvent :=
  o.input?.bind LoopInput.event?

section Engine

variable {ι : Type} [DecidableEq ι] (cfg : LoopConfig) (handles : List ι)

/-- One step of the engine. -/
def engineStep (s : EngineState ι) :
    Pipe.Input PacketEvent (EngineAction ι) → Option (EngineState ι × List EngineObs)
  | .recv (some event) =>
    match s.pc with
    | .looping =>
      some ({ s with loop := loopStep cfg s.loop (.event event) }, [.input (.event event)])
    | _ => none
  | .recv none =>
    match s.pc with
    | .looping => some ({ s with pc := .joining handles }, [])
    | _ => none
  | .own (.tick now) =>
    match s.pc with
    | .looping =>
      if s.clock ≤ now then
        let loop := loopStep cfg s.loop (.tick now)
        some ({ s with clock := now, loop := loop },
          .input (.tick now) :: (loop.intervals.drop s.loop.intervals.length).map .progress)
      else none
    | _ => none
  | .own (.join handle ended) =>
    match s.pc with
    | .joining (next :: rest) =>
      if handle = next then
        match ended.await with
        | .ok _ => some ({ s with pc := .joining rest }, [])
        | .error e => some ({ s with pc := .returned (.error e) }, [])
      else none
    | _ => none
  | .own .finish =>
    match s.pc with
    | .joining [] => some ({ s with pc := .returned (.ok ()) }, [])
    | _ => none

/-- `run_benchmark` from its loop on. -/
def engine : Machine (EngineState ι) (Pipe.Input PacketEvent (EngineAction ι)) EngineObs where
  init := ⟨.looping, 0, {}⟩
  step := engineStep cfg handles

end Engine

/-- The report, from the variables of the loop. -/
def LoopState.report (s : LoopState) (cfg : RunConfig) : BenchmarkReport :=
  let (resolvedRate, recommendations) := resolveRate cfg.rate cfg.transport
  let elapsedSecs := durationSecs cfg.duration
  let aggregate := buildAggregate s.metrics.streams s.metrics.totals elapsedSecs
  { intervals := s.intervals
    streams := streamStatsFromMap s.metrics.streams elapsedSecs
    aggregate := aggregate
    latencyHistogram := buildHistogram s.metrics.globalLatencies s.metrics.histogram
    config := {
      streams := cfg.streams
      durationMs := cfg.duration / 1000000
      warmupMs := cfg.warmup / 1000000
      payloadBytes := cfg.payloadBytes
      rateBps := resolvedRate
      intervalMs := cfg.interval / 1000000 }
    recommendations := recommendations ++ [
      if aggregate.lossPct > 1 then {
        label := "reduce target rate"
        score := max (100 - aggregate.lossPct) 0
        reason := "packet loss above 1% indicates saturation" }
      else {
        label := "increase stream count"
        score := aggregate.throughputBps / 1000000000
        reason := "loss remains low; additional streams may raise throughput" }] }

theorem report_runLoop (cfg : RunConfig) (started : ℕ) (inputs : List LoopInput) :
    (runLoop (cfg.loopConfig started) {} inputs).report cfg = benchmarkReport cfg started inputs :=
  rfl

/-- `run_benchmark` has returned `Ok`. -/
def EnginePc.isOk {ι : Type} : EnginePc ι → Bool
  | .returned (.ok _) => true
  | _ => false

theorem EnginePc.isOk_iff {ι : Type} {pc : EnginePc ι} :
    pc.isOk = true ↔ pc = .returned (.ok ()) := by
  refine ⟨fun h => ?_, fun h => by rw [h]; rfl⟩
  unfold EnginePc.isOk at h
  split at h
  · rfl
  · cases h

/-! ## What a step of the engine can do -/

section EngineEffect

variable {ι : Type} [DecidableEq ι] {cfg : LoopConfig} {handles : List ι}

/-- What a step of the engine does, and what it shows. -/
inductive EngineEffect (cfg : LoopConfig) (handles : List ι) (s : EngineState ι) :
    Pipe.Input PacketEvent (EngineAction ι) → EngineState ι → List EngineObs → Prop
  | event (event : PacketEvent) (hpc : s.pc = .looping) :
      EngineEffect cfg handles s (.recv (some event))
        { s with loop := loopStep cfg s.loop (.event event) } [.input (.event event)]
  | close (hpc : s.pc = .looping) :
      EngineEffect cfg handles s (.recv none) { s with pc := .joining handles } []
  | tick (now : ℕ) (hpc : s.pc = .looping) (hnow : s.clock ≤ now) :
      EngineEffect cfg handles s (.own (.tick now))
        { s with clock := now, loop := loopStep cfg s.loop (.tick now) }
        (.input (.tick now) :: ((loopStep cfg s.loop (.tick now)).intervals.drop
          s.loop.intervals.length).map .progress)
  | joined (handle : ι) (ended : StreamExit) (rest : List ι) (hpc : s.pc = .joining (handle :: rest))
      (hok : ended.await = .ok ()) :
      EngineEffect cfg handles s (.own (.join handle ended)) { s with pc := .joining rest } []
  | failed (handle : ι) (ended : StreamExit) (rest : List ι) (e : RunError)
      (hpc : s.pc = .joining (handle :: rest)) (herror : ended.await = .error e) :
      EngineEffect cfg handles s (.own (.join handle ended))
        { s with pc := .returned (.error e) } []
  | finish (hpc : s.pc = .joining []) :
      EngineEffect cfg handles s (.own .finish) { s with pc := .returned (.ok ()) } []

theorem engineStep_effect {s s' : EngineState ι} {i : Pipe.Input PacketEvent (EngineAction ι)}
    {o : List EngineObs} (h : engineStep cfg handles s i = some (s', o)) :
    EngineEffect cfg handles s i s' o := by
  unfold engineStep at h
  split at h
  · split at h
    · rename_i hpc
      obtain ⟨rfl, rfl⟩ := Prod.mk.inj (Option.some.inj h)
      exact .event _ hpc
    · cases h
  · split at h
    · rename_i hpc
      obtain ⟨rfl, rfl⟩ := Prod.mk.inj (Option.some.inj h)
      exact .close hpc
    · cases h
  · split at h
    · rename_i hpc
      split_ifs at h with hnow
      obtain ⟨rfl, rfl⟩ := Prod.mk.inj (Option.some.inj h)
      exact .tick _ hpc hnow
    · cases h
  · split at h
    · rename_i next rest hpc
      split_ifs at h with hnext
      subst hnext
      split at h
      · rename_i hok
        obtain ⟨rfl, rfl⟩ := Prod.mk.inj (Option.some.inj h)
        exact .joined _ _ rest hpc hok
      · rename_i e herror
        obtain ⟨rfl, rfl⟩ := Prod.mk.inj (Option.some.inj h)
        exact .failed _ _ rest e hpc herror
    · cases h
  · split at h
    · rename_i hpc
      obtain ⟨rfl, rfl⟩ := Prod.mk.inj (Option.some.inj h)
      exact .finish hpc
    · cases h

/-! ## What the engine counts -/

/-- What `select!` took. -/
def inputsOf (t : List EngineObs) : List LoopInput :=
  t.filterMap EngineObs.input?

/-- The intervals that were sent. -/
def progressOf (t : List EngineObs) : List IntervalStats :=
  t.filterMap EngineObs.progress?

theorem inputsOf_append (t t' : List EngineObs) : inputsOf (t ++ t') = inputsOf t ++ inputsOf t' :=
  List.filterMap_append

theorem progressOf_append (t t' : List EngineObs) :
    progressOf (t ++ t') = progressOf t ++ progressOf t' :=
  List.filterMap_append

/-- What a tick shows : itself and the interval it made. -/
theorem tick_shows (now : ℕ) (intervals : List IntervalStats) :
    inputsOf (.input (.tick now) :: intervals.map .progress) = [.tick now] ∧
      progressOf (.input (.tick now) :: intervals.map .progress) = intervals := by
  constructor
  · simp [inputsOf, EngineObs.input?, List.filterMap_map, Function.comp_def]
  · rw [progressOf, List.filterMap_cons_none rfl, List.filterMap_map]
    exact List.filterMap_some

/-- A tick makes at most an interval more. -/
theorem intervals_prefix_tick (cfg : LoopConfig) (s : LoopState) (now : ℕ) :
    s.intervals <+: (loopStep cfg s (.tick now)).intervals := by
  rw [loopStep]
  unfold onTick
  split_ifs
  · exact List.prefix_rfl
  · exact List.prefix_append _ _

theorem intervals_loopStep_event (cfg : LoopConfig) (s : LoopState) (event : PacketEvent) :
    (loopStep cfg s (.event event)).intervals = s.intervals := by
  unfold loopStep
  dsimp only
  split_ifs <;> rfl

/-- The times of the ticks. -/
def tickTimes (inputs : List LoopInput) : List ℕ :=
  inputs.filterMap LoopInput.tick?

/-- The engine is `runLoop` on what it took, and has sent its intervals. -/
structure EngineTracks (cfg : LoopConfig) (t : List EngineObs) (s : EngineState ι) : Prop where
  loop : s.loop = runLoop cfg {} (inputsOf t)
  progress : progressOf t = s.loop.intervals
  sorted : (tickTimes (inputsOf t)).Pairwise (· ≤ ·)
  clock : ∀ now ∈ tickTimes (inputsOf t), now ≤ s.clock

theorem engineTracks_reach {t : List EngineObs} {s : EngineState ι}
    (h : (engine cfg handles).Reach t s) : EngineTracks cfg t s := by
  refine h.invariant (I := EngineTracks cfg) ⟨rfl, rfl, .nil, nofun⟩ fun {t s i s' o} _ ih hstep => ?_
  cases engineStep_effect hstep with
  | event event hpc =>
    have hinputs : inputsOf (t ++ [.input (.event event)]) = inputsOf t ++ [.event event] :=
      inputsOf_append _ _
    have hprogress : progressOf (t ++ [.input (.event event)]) = progressOf t :=
      (progressOf_append _ _).trans (List.append_nil _)
    have hticks : tickTimes (inputsOf t ++ [.event event]) = tickTimes (inputsOf t) := by
      simp [tickTimes, LoopInput.tick?]
    refine ⟨?_, ?_, ?_, ?_⟩
    · rw [hinputs, runLoop_concat, ← ih.loop]
    · rw [hprogress, intervals_loopStep_event, ih.progress]
    · rw [hinputs, hticks]
      exact ih.sorted
    · rw [hinputs, hticks]
      exact ih.clock
  | tick now hpc hnow =>
    obtain ⟨hin, hpr⟩ := tick_shows now
      ((loopStep cfg s.loop (.tick now)).intervals.drop s.loop.intervals.length)
    have hticks : tickTimes (inputsOf t ++ [.tick now]) = tickTimes (inputsOf t) ++ [now] := by
      simp [tickTimes, LoopInput.tick?]
    refine ⟨?_, ?_, ?_, ?_⟩
    · rw [inputsOf_append, hin, runLoop_concat, ← ih.loop]
    · obtain ⟨made, hmade⟩ := intervals_prefix_tick cfg s.loop now
      rw [progressOf_append, hpr, ih.progress, ← hmade, List.drop_left]
    · rw [inputsOf_append, hin, hticks]
      refine List.pairwise_append.mpr ⟨ih.sorted, List.pairwise_singleton _ _, fun n hn m hm => ?_⟩
      rw [List.mem_singleton.mp hm]
      exact (ih.clock n hn).trans hnow
    · rw [inputsOf_append, hin, hticks]
      intro n hn
      rcases List.mem_append.mp hn with hold | hnew
      · exact (ih.clock n hold).trans hnow
      · exact (List.mem_singleton.mp hnew).le
  | close _ | joined _ _ _ _ _ | failed _ _ _ _ _ _ | finish _ =>
    rw [List.append_nil]
    exact ⟨ih.loop, ih.progress, ih.sorted, ih.clock⟩

/-- The events that `select!` took. -/
theorem filterMap_event (t : List EngineObs) :
    t.filterMap EngineObs.event? = (inputsOf t).filterMap LoopInput.event? := by
  rw [inputsOf, List.filterMap_filterMap]
  rfl

theorem received_recv {s s' : EngineState ι} {event : Option PacketEvent} {o : List EngineObs}
    (h : (engine cfg handles).step s (.recv event) = some (s', o)) :
    o.filterMap EngineObs.event? = event.toList := by
  cases engineStep_effect h <;> rfl

theorem received_own {s s' : EngineState ι} {a : EngineAction ι} {o : List EngineObs}
    (h : (engine cfg handles).step s (.own a) = some (s', o)) :
    o.filterMap EngineObs.event? = [] := by
  cases engineStep_effect h with
  | tick now _ _ => rw [filterMap_event, (tick_shows now _).1]; rfl
  | joined _ _ _ _ _ | failed _ _ _ _ _ _ | finish _ => rfl

end EngineEffect

/-! ## The streams and the engine -/

/-- The tasks that `run_benchmark` spawns, with whatever they talk to. What a task shows is marked
with its handle. -/
structure StreamTasks (ι σ α ω : Type) where
  machine : Machine σ α (ι × ω)
  /-- The handles, in the order in which the tasks are spawned. -/
  handles : List ι
  /-- The event that is sent. -/
  event : ω → Option PacketEvent
  ended : σ → ι → Option StreamExit
  ended_step : ∀ {s a s' o}, machine.step s a = some (s', o) →
    ∀ {i e}, ended s i = some e → ended s' i = some e
  /-- A task that has ended sends nothing. -/
  quiet : ∀ {s a s' o}, machine.step s a = some (s', o) →
    ∀ {i e}, ended s i = some e → ∀ {ob}, (i, ob) ∈ o → event ob = none
  mem_handles : ∀ i, i ∈ handles

section Run

variable {ι σ α ω : Type} [DecidableEq ι] (S : StreamTasks ι σ α ω) (cfg : LoopConfig)

/-- All tasks have ended, so all senders are dropped. -/
def StreamTasks.allEnded (s : σ) : Bool :=
  S.handles.all fun i => (S.ended s i).isSome

/-- `run_benchmark` and its streams. -/
def runSystem : Pipe σ α (ι × ω) PacketEvent (EngineState ι) (EngineAction ι) EngineObs where
  producer := S.machine
  message o := S.event o.2
  closed := S.allEnded
  consumer := engine cfg S.handles
  received := EngineObs.event?
  allows s a :=
    match a with
    | .join i ended => S.ended s i = some ended
    | _ => true
  received_recv := received_recv
  received_own := received_own

variable {S cfg}

omit [DecidableEq ι] in
theorem StreamTasks.allEnded_iff {s : σ} : S.allEnded s = true ↔ ∀ i, ∃ e, S.ended s i = some e := by
  simp only [StreamTasks.allEnded, List.all_eq_true, Option.isSome_iff_exists]
  exact ⟨fun h i => h i (S.mem_handles i), fun h i _ => h i⟩

omit [DecidableEq ι] in
/-- Once all tasks have ended they stay as they are, and send nothing. -/
theorem StreamTasks.allEnded_step {s s' : σ} {a : α} {o : List (ι × ω)}
    (h : S.machine.step s a = some (s', o)) (hall : S.allEnded s = true) :
    S.allEnded s' = true ∧ o.filterMap (fun ob => S.event ob.2) = [] := by
  rw [allEnded_iff] at hall ⊢
  refine ⟨fun i => ?_, List.filterMap_eq_nil_iff.mpr fun ⟨i, ob⟩ hmem => ?_⟩
  · obtain ⟨e, he⟩ := hall i
    exact ⟨e, S.ended_step h he⟩
  · obtain ⟨e, he⟩ := hall i
    exact S.quiet h he hmem

/-- The engine has left its loop only when all tasks have ended and the channel is empty, and the
tasks it has joined returned `Ok`. -/
def Joins (S : StreamTasks ι σ α ω) (s : Pipe.State σ PacketEvent (EngineState ι)) : Prop :=
  match s.consumer.pc with
  | .looping => True
  | .joining handles => S.allEnded s.producer = true ∧ s.channel = [] ∧
      ∃ joined, S.handles = joined ++ handles ∧ ∀ i ∈ joined, S.ended s.producer i = some .returned
  | .returned result => S.allEnded s.producer = true ∧ s.channel = [] ∧
      ∃ ends : ι → StreamExit, (∀ i, S.ended s.producer i = some (ends i)) ∧
        result = joinHandles (S.handles.map ends)

theorem joinHandles_append {ends : List StreamExit} (h : ∀ e ∈ ends, e = .returned)
    (ends' : List StreamExit) : joinHandles (ends ++ ends') = joinHandles ends' := by
  induction ends with
  | nil => rfl
  | cons e ends ih =>
    obtain rfl := h e List.mem_cons_self
    exact ih fun e he => h e (List.mem_cons_of_mem _ he)

omit [DecidableEq ι] in
/-- What the loop over the handles returns, when the ones before the last joined one returned
`Ok`. -/
theorem joinHandles_map {handles joined rest : List ι} {s : σ} {ends : ι → StreamExit}
    (hends : ∀ i, S.ended s i = some (ends i)) (hhandles : handles = joined ++ rest)
    (hjoined : ∀ i ∈ joined, S.ended s i = some .returned) :
    joinHandles (handles.map ends) = joinHandles (rest.map ends) := by
  rw [hhandles, List.map_append]
  refine joinHandles_append (fun e he => ?_) _
  obtain ⟨i, hi, rfl⟩ := List.mem_map.mp he
  exact Option.some.inj ((hends i).symm.trans (hjoined i hi))

theorem joins_reach {t : List (Pipe.Obs (ι × ω) EngineObs)}
    {s : Pipe.State σ PacketEvent (EngineState ι)} (h : (runSystem S cfg).machine.Reach t s) :
    Joins S s := by
  refine Machine.Reach.invariant (M := (runSystem S cfg).machine) (I := fun _ s => Joins S s)
    trivial (fun {_ s _ s' _} _ ih hstep => ?_) h
  unfold Joins at ih ⊢
  cases Pipe.step_effect hstep with
  | produce a p o hp =>
    dsimp only
    split at ih
    · trivial
    · obtain ⟨hall, hchannel, joined, hhandles, hjoined⟩ := ih
      obtain ⟨hall', hquiet⟩ := StreamTasks.allEnded_step hp hall
      exact ⟨hall', by rw [hchannel]; exact hquiet, joined, hhandles,
        fun i hi => S.ended_step hp (hjoined i hi)⟩
    · obtain ⟨hall, hchannel, ends, hends, hresult⟩ := ih
      obtain ⟨hall', hquiet⟩ := StreamTasks.allEnded_step hp hall
      exact ⟨hall', by rw [hchannel]; exact hquiet, ends, fun i => S.ended_step hp (hends i),
        hresult⟩
  | recv m channel c o hchannel hclosed hc =>
    cases engineStep_effect hc with
    | event event hpc =>
      dsimp only
      rw [hpc]
      trivial
    | close hpc =>
      obtain ⟨rfl, hall⟩ := hclosed rfl
      exact ⟨hall, rfl, [], rfl, nofun⟩
  | own b c o hallows hc =>
    cases engineStep_effect hc with
    | tick now hpc _ =>
      dsimp only
      rw [hpc]
      trivial
    | joined handle ended rest hpc hok =>
      rw [hpc] at ih
      obtain ⟨hall, hchannel, joined, hhandles, hjoined⟩ := ih
      refine ⟨hall, hchannel, joined ++ [handle], by rw [hhandles, List.append_assoc]; rfl,
        fun i hi => ?_⟩
      rcases List.mem_append.mp hi with hold | hnew
      · exact hjoined i hold
      · rw [List.mem_singleton.mp hnew, of_decide_eq_true hallows]
        cases ended <;> first | rfl | cases hok
    | failed handle ended rest e hpc herror =>
      rw [hpc] at ih
      obtain ⟨hall, hchannel, joined, hhandles, hjoined⟩ := ih
      choose ends hends using StreamTasks.allEnded_iff.mp hall
      refine ⟨hall, hchannel, ends, hends, ?_⟩
      have hended : ends handle = ended :=
        Option.some.inj ((hends handle).symm.trans (of_decide_eq_true hallows))
      rw [joinHandles_map hends hhandles hjoined, List.map_cons, joinHandles, hended, herror]
      rfl
    | finish hpc =>
      rw [hpc] at ih
      obtain ⟨hall, hchannel, joined, hhandles, hjoined⟩ := ih
      choose ends hends using StreamTasks.allEnded_iff.mp hall
      refine ⟨hall, hchannel, ends, hends, ?_⟩
      rw [joinHandles_map hends hhandles hjoined]
      rfl

/-! ## What a run reports -/

/-- The events that the tasks have sent, in order. -/
def sentEvents (S : StreamTasks ι σ α ω) (t : List (Pipe.Obs (ι × ω) EngineObs)) :
    List PacketEvent :=
  (Pipe.produced t).filterMap fun o => S.event o.2

/-- What `select!` took. -/
def runInputs (t : List (Pipe.Obs (ι × ω) EngineObs)) : List LoopInput :=
  inputsOf (Pipe.consumed t)

/-- The intervals that were sent to `progress_tx`. -/
def runProgress (t : List (Pipe.Obs (ι × ω) EngineObs)) : List IntervalStats :=
  progressOf (Pipe.consumed t)

theorem joinHandles_eq_ok_iff {ends : List StreamExit} :
    joinHandles ends = .ok () ↔ ∀ e ∈ ends, e = .returned := by
  induction ends with
  | nil => simp [joinHandles]
  | cons e ends ih =>
    rw [List.forall_mem_cons, ← ih]
    cases e <;> simp [joinHandles, StreamExit.await, bind, Except.bind]

omit [DecidableEq ι] in
/-- An error comes from the first task that did not return `Ok`. -/
theorem joinHandles_eq_error {ends : ι → StreamExit} {e : RunError} : ∀ {handles : List ι},
    joinHandles (handles.map ends) = .error e →
      ∃ joined i rest, handles = joined ++ i :: rest ∧ (∀ j ∈ joined, ends j = .returned) ∧
        (ends i).await = .error e
  | [], h => by cases h
  | i :: handles, h => by
    cases hi : (ends i).await with
    | error e' =>
      rw [List.map_cons, joinHandles, hi] at h
      obtain rfl : e' = e := by simpa [bind, Except.bind] using h
      exact ⟨[], i, handles, rfl, nofun, hi⟩
    | ok _ =>
      rw [List.map_cons, joinHandles, hi] at h
      obtain ⟨joined, j, rest, rfl, hjoined, hj⟩ := @joinHandles_eq_error ends e handles h
      refine ⟨i :: joined, j, rest, rfl, ?_, hj⟩
      rw [List.forall_mem_cons]
      exact ⟨by cases hends : ends i <;> simp_all [StreamExit.await], hjoined⟩

section Reports

variable {cfg : RunConfig} {started : ℕ} {t : List (Pipe.Obs (ι × ω) EngineObs)}
  {s : Pipe.State σ PacketEvent (EngineState ι)}

/-- The events sent are those that `select!` took and those in the channel. -/
theorem sentEvents_eq {cfg : LoopConfig} (h : (runSystem S cfg).machine.Reach t s) :
    sentEvents S t = (runInputs t).filterMap LoopInput.event? ++ s.channel :=
  (Pipe.sent_eq h).trans (congrArg (· ++ s.channel) (filterMap_event _))

theorem report_eq (h : (runSystem S (cfg.loopConfig started)).machine.Reach t s) :
    s.consumer.loop.report cfg = benchmarkReport cfg started (runInputs t) :=
  (congrArg (LoopState.report · cfg) (engineTracks_reach (Pipe.consumer_reach h)).loop).trans
    (report_runLoop cfg started _)

/-- When `run_benchmark` returns, all tasks have ended, and all their events were taken. -/
theorem returned_cases {cfg : LoopConfig} (h : (runSystem S cfg).machine.Reach t s)
    {result : Except RunError Unit} (hpc : s.consumer.pc = .returned result) :
    sentEvents S t = (runInputs t).filterMap LoopInput.event? ∧
      ∃ ends : ι → StreamExit, (∀ i, S.ended s.producer i = some (ends i)) ∧
        result = joinHandles (S.handles.map ends) := by
  have hjoins := joins_reach h
  unfold Joins at hjoins
  rw [hpc] at hjoins
  obtain ⟨-, hchannel, hends⟩ := hjoins
  refine ⟨?_, hends⟩
  rw [sentEvents_eq h, hchannel, List.append_nil]

omit [DecidableEq ι] in
theorem joinHandles_ends {s : σ} {ends : ι → StreamExit} (hends : ∀ i, S.ended s i = some (ends i)) :
    joinHandles (S.handles.map ends) = .ok () ↔ ∀ i, S.ended s i = some .returned := by
  rw [joinHandles_eq_ok_iff, List.forall_mem_map]
  exact ⟨fun hall i => by rw [hends i, hall i (S.mem_handles i)],
    fun hall i _ => Option.some.inj ((hends i).symm.trans (hall i))⟩

/-- In every run, whatever the tasks do and however their steps and those of the engine are
interleaved : the events sent are those that `select!` took and those in the channel, each once and
in the order in which they were sent, and the intervals sent to `progress_tx` are those made.

When `run_benchmark` returns, all tasks have ended and all their events were taken. It returns `Ok`
exactly if each task did, with the report of what `select!` took, and otherwise the error of the
first task, in the order of the handles, that did not. -/
theorem runSystem_reports (h : (runSystem S (cfg.loopConfig started)).machine.Reach t s) :
    sentEvents S t = (runInputs t).filterMap LoopInput.event? ++ s.channel ∧
    (tickTimes (runInputs t)).Pairwise (· ≤ ·) ∧
    runProgress t = s.consumer.loop.intervals ∧
    ∀ result, s.consumer.pc = .returned result →
      sentEvents S t = (runInputs t).filterMap LoopInput.event? ∧
      s.consumer.loop.report cfg = benchmarkReport cfg started (runInputs t) ∧
      runProgress t = (benchmarkReport cfg started (runInputs t)).intervals ∧
      (∀ i, (S.ended s.producer i).isSome) ∧
      (result = .ok () ↔ ∀ i, S.ended s.producer i = some .returned) ∧
      ∀ e, result = .error e → ∃ joined i rest ended, S.handles = joined ++ i :: rest ∧
        (∀ j ∈ joined, S.ended s.producer j = some .returned) ∧
        S.ended s.producer i = some ended ∧ ended.await = .error e := by
  have htracks := engineTracks_reach (Pipe.consumer_reach h)
  refine ⟨sentEvents_eq h, htracks.sorted, htracks.progress, fun result hpc => ?_⟩
  obtain ⟨hsent, ends, hends, rfl⟩ := returned_cases h hpc
  refine ⟨hsent, report_eq h, ?_, fun i => by rw [hends i]; rfl, joinHandles_ends hends,
    fun e he => ?_⟩
  · rw [← report_eq h]
    exact htracks.progress
  · obtain ⟨joined, i, rest, hhandles, hjoined, hi⟩ := joinHandles_eq_error he
    exact ⟨joined, i, rest, ends i, hhandles, fun j hj => by rw [hends j, hjoined j hj], hends i, hi⟩

end Reports

/-- Tasks that send given events and end in a given way. -/
def scriptedTasks {n : ℕ} (ends : Fin n → StreamExit) (script : Fin n → List PacketEvent) :
    StreamTasks (Fin n) (Fin n → List PacketEvent) (Fin n) PacketEvent where
  machine := {
    init := script
    step := fun s i =>
      match s i with
      | [] => none
      | event :: events => some (Function.update s i events, [(i, event)]) }
  handles := List.finRange n
  event := some
  ended s i := if s i = [] then some (ends i) else none
  ended_step := by
    intro s a s' o hstep i e hended
    obtain ⟨hi, hends⟩ := Option.ite_none_right_eq_some.mp hended
    refine (if_pos ?_).trans hends
    dsimp only at hstep
    split at hstep
    · cases hstep
    · rename_i event events ha
      obtain ⟨rfl, -⟩ := Prod.mk.inj (Option.some.inj hstep)
      rw [Function.update_of_ne fun heq => by simp [← heq, hi] at ha]
      exact hi
  quiet := by
    intro s a s' o hstep i e hended ob hob
    obtain ⟨hi, -⟩ := Option.ite_none_right_eq_some.mp hended
    dsimp only at hstep
    split at hstep
    · cases hstep
    · rename_i event events ha
      obtain ⟨-, rfl⟩ := Prod.mk.inj (Option.some.inj hstep)
      obtain ⟨rfl, -⟩ := Prod.mk.inj (List.mem_singleton.mp hob)
      simp [hi] at ha
  mem_handles := List.mem_finRange

/-- Two streams, of which the second one fails after an event. -/
def failingTasks : StreamTasks (Fin 2) (Fin 2 → List PacketEvent) (Fin 2) PacketEvent :=
  scriptedTasks ![.returned, .failed]
    ![[⟨0, 1, 64, 0, some 5, true⟩], [⟨1, 1, 64, 0, none, true⟩]]

/-- Both send their event, with a tick in between, and the engine goes on to the end. -/
def failingRun : List (Pipe.Action (Fin 2) (EngineAction (Fin 2))) :=
  [.produce 1, .produce 0, .recv, .own (.tick 100000000), .recv, .recv,
    .own (.join 0 .returned), .own (.join 1 .failed)]

theorem failingRun_exec :
    ((runSystem failingTasks (lostWarmup.loopConfig 0)).machine.exec
      (runSystem failingTasks (lostWarmup.loopConfig 0)).machine.init failingRun).map
        (fun r => (r.1.consumer.pc matches .returned (.error .execution), r.1.channel)) =
          some (true, []) := by
  decide +kernel

theorem runSystem_reports_failing :
    ∃ t s, (runSystem failingTasks (lostWarmup.loopConfig 0)).machine.Reach t s ∧
      s.consumer.pc = .returned (.error .execution) ∧
      sentEvents failingTasks t = (runInputs t).filterMap LoopInput.event? := by
  obtain ⟨⟨s, t⟩, hexec, hshow⟩ := Option.map_eq_some_iff.mp failingRun_exec
  have hreach := Machine.reach_exec hexec
  have hpc : s.consumer.pc = .returned (.error .execution) := by
    have hmatch := (Prod.mk.inj hshow).1
    dsimp only at hmatch
    split at hmatch
    · assumption
    · cases hmatch
  exact ⟨t, s, hreach, hpc, ((runSystem_reports hreach).2.2.2 _ hpc).1⟩

/-! ## `run_benchmark` returns -/

/-- How many steps of the engine are left, once all tasks have ended. -/
def stepsLeft (S : StreamTasks ι σ α ω) (s : Pipe.State σ PacketEvent (EngineState ι)) : ℕ :=
  match s.consumer.pc with
  | .looping => s.channel.length + S.handles.length + 2
  | .joining handles => handles.length + 1
  | .returned _ => 0

/-- A step of a task, or of what it talks to, or a tick of the interval timer. -/
def waits : Pipe.Action α (EngineAction ι) → Bool
  | .produce _ | .own (.tick _) => true
  | _ => false

/-- A step of the engine. -/
theorem stepsLeft_engine {s s' : Pipe.State σ PacketEvent (EngineState ι)}
    {a : Pipe.Action α (EngineAction ι)} {o : List (Pipe.Obs (ι × ω) EngineObs)}
    (ha : a.consumes = true) (hstep : (runSystem S cfg).machine.step s a = some (s', o)) :
    s'.producer = s.producer ∧ if waits a then stepsLeft S s' = stepsLeft S s
      else stepsLeft S s' < stepsLeft S s := by
  cases Pipe.step_effect hstep with
  | produce a p o hp => cases ha
  | recv m channel c o hchannel hclosed hc =>
    refine ⟨rfl, ?_⟩
    cases engineStep_effect hc with
    | event event hpc => simp [waits, stepsLeft, hpc, hchannel]
    | close hpc =>
      simp only [waits, Bool.false_eq_true, if_false, stepsLeft, hpc]
      omega
  | own b c o hallows hc =>
    refine ⟨rfl, ?_⟩
    cases engineStep_effect hc with
    | tick now hpc _ => simp [waits, stepsLeft, hpc]
    | joined handle ended rest hpc hok => simp [waits, stepsLeft, hpc]
    | failed handle ended rest e hpc herror => simp [waits, stepsLeft, hpc]
    | finish hpc => simp [waits, stepsLeft, hpc]

/-- A step, once all tasks have ended. -/
theorem stepsLeft_step {s s' : Pipe.State σ PacketEvent (EngineState ι)}
    {a : Pipe.Action α (EngineAction ι)} {o : List (Pipe.Obs (ι × ω) EngineObs)}
    (hall : S.allEnded s.producer = true)
    (hstep : (runSystem S cfg).machine.step s a = some (s', o)) :
    S.allEnded s'.producer = true ∧ if waits a then stepsLeft S s' = stepsLeft S s
      else stepsLeft S s' < stepsLeft S s := by
  cases a with
  | produce a =>
    have heffect : (runSystem S cfg).Effect s (.produce a) s' o := Pipe.step_effect hstep
    cases heffect with
    | produce a p o hp =>
      obtain ⟨hall', hquiet⟩ := StreamTasks.allEnded_step hp hall
      refine ⟨hall', ?_⟩
      have hchannel : s.channel ++ o.filterMap (runSystem S cfg).message = s.channel := by
        rw [show o.filterMap (runSystem S cfg).message = [] from hquiet, List.append_nil]
      simp only [waits, if_true, stepsLeft, hchannel]
  | recv | own b =>
    obtain ⟨hproducer, hleft⟩ := stepsLeft_engine rfl hstep
    exact ⟨hproducer ▸ hall, hleft⟩

/-- As long as `run_benchmark` has not returned, the engine can go on. -/
theorem exists_step {s : Pipe.State σ PacketEvent (EngineState ι)}
    (hall : S.allEnded s.producer = true) (hpc : ∀ result, s.consumer.pc ≠ .returned result) :
    ∃ a, waits a = false ∧ ((runSystem S cfg).machine.step s a).isSome := by
  cases hc : s.consumer.pc with
  | looping =>
    refine ⟨.recv, rfl, ?_⟩
    cases hchannel : s.channel with
    | nil =>
      simp [Pipe.machine, Pipe.step, Pipe.consume, hchannel, hall, runSystem, engine, engineStep, hc]
    | cons event channel =>
      simp [Pipe.machine, Pipe.step, Pipe.consume, hchannel, runSystem, engine, engineStep, hc]
  | joining handles =>
    cases handles with
    | nil =>
      exact ⟨.own .finish, rfl,
        by simp [Pipe.machine, Pipe.step, Pipe.consume, runSystem, engine, engineStep, hc]⟩
    | cons i rest =>
      obtain ⟨ended, hended⟩ := StreamTasks.allEnded_iff.mp hall i
      refine ⟨.own (.join i ended), rfl, ?_⟩
      cases hawait : ended.await <;>
        simp [Pipe.machine, Pipe.step, Pipe.consume, runSystem, engine, engineStep, hc, hended,
          hawait]
  | returned result => exact absurd hc (hpc result)

/-- Once all tasks have ended, at most `stepsLeft` steps other than those of tasks and ticks are
taken until `run_benchmark` returns, whatever happens in between, and as long as it has not returned
one of them can be taken. -/
theorem runSystem_returns {s s' : Pipe.State σ PacketEvent (EngineState ι)}
    (hall : S.allEnded s.producer = true) {as : List (Pipe.Action α (EngineAction ι))}
    {t : List (Pipe.Obs (ι × ω) EngineObs)}
    (he : (runSystem S cfg).machine.exec s as = some (s', t)) :
    as.countP (fun a => !waits a) + stepsLeft S s' ≤ stepsLeft S s ∧
    ((∃ result, s'.consumer.pc = .returned result) ∨
      ∃ a, waits a = false ∧ ((runSystem S cfg).machine.step s' a).isSome) := by
  obtain ⟨hall', hcount⟩ := (runSystem S cfg).machine.exec_measure (P := fun _ => True)
    (I := fun s => S.allEnded s.producer = true) (stepsLeft S) (fun a => !waits a)
    (by
      intro s a s' o hall _ hstep
      obtain ⟨hall', hleft⟩ := stepsLeft_step hall hstep
      refine ⟨hall', ?_⟩
      cases hwaits : waits a <;> simp only [hwaits, Bool.not_false, Bool.not_true, if_true,
        Bool.false_eq_true, if_false] at hleft ⊢ <;> omega) hall (fun _ _ => trivial) he
  refine ⟨hcount, ?_⟩
  by_cases hpc : ∃ result, s'.consumer.pc = .returned result
  · exact Or.inl hpc
  · exact Or.inr (exists_step hall' fun result hr => hpc ⟨result, hr⟩)

/-- Both have ended, and their events are in the channel. -/
def bothEnded : Pipe.State (Fin 2 → List PacketEvent) PacketEvent (EngineState (Fin 2)) :=
  ⟨fun _ => [], [⟨1, 1, 64, 0, none, true⟩, ⟨0, 1, 64, 0, some 5, true⟩], ⟨.looping, 0, {}⟩⟩

theorem runSystem_returns_failing :
    ∃ s' t, (runSystem failingTasks (lostWarmup.loopConfig 0)).machine.exec bothEnded
        (failingRun.drop 2) = some (s', t) ∧ 5 + stepsLeft failingTasks s' ≤ 6 := by
  obtain ⟨⟨s', t⟩, he⟩ := Option.isSome_iff_exists.mp
    (show ((runSystem failingTasks (lostWarmup.loopConfig 0)).machine.exec bothEnded
      (failingRun.drop 2)).isSome = true by decide +kernel)
  exact ⟨s', t, he, (runSystem_returns (by decide) he).1⟩

end Run

end Ipfusch
