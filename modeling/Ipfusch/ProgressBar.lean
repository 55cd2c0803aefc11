import Ipfusch.RunCommand

/-!
# The progress bar

Without `--tui`, `--jsonl` and `--json` the command shows a run as a bar (`run_with_progress`). Its
loop takes ticks of a timer, intervals and the end of the benchmark in any order. It prints a line
for each interval it takes. When it takes the end, intervals can still be in the channel, and these
are not printed.

`progressBar_reports` : the bar stays within its length, the lines are those of the first intervals
of the run, and if the benchmark succeeds then the bar ends full, with the report of the run, of
which at most the intervals left in the channel have no line.
-/

namespace Ipfusch

/-! ## The loop -/

/-- `duration.as_millis() as u64` -/
def asMillis (duration : ℕ) : ℕ :=
  duration / 1000000 % 2 ^ 64

/-- `u64::saturating_add` -/
def saturatingAdd (a b : ℕ) : ℕ :=
  min (a + b) (2 ^ 64 - 1)

theorem saturatingAdd_mono (a : ℕ) {b b' : ℕ} (h : b ≤ b') :
    saturatingAdd a b ≤ saturatingAdd a b' :=
  min_le_min_right _ (Nat.add_le_add_left h a)

/-- `total_ms` -/
def RunConfig.totalMs (cfg : RunConfig) : ℕ :=
  max (saturatingAdd (asMillis cfg.warmup) (asMillis cfg.duration)) 1

/-- Where an interval puts the bar. -/
def RunConfig.positionOf (cfg : RunConfig) (interval : IntervalStats) : ℕ :=
  min (saturatingAdd (asMillis cfg.warmup) (min interval.endMs (asMillis cfg.duration))) cfg.totalMs

/-- The message of the bar. -/
inductive BarMessage
  | warmingUp
  | warmingUpFor (left : ℕ)
  | interval (interval : IntervalStats)
  | complete (aggregate : AggregateStats)

/-- Where `run_with_progress` is. -/
inductive BarPc
  | looping
  | returned (result : Except RunError BenchmarkReport)

/-- The bar and the loop. -/
structure BarState where
  pc : BarPc
  /-- The time since the start. -/
  elapsed : ℕ
  position : ℕ
  message : BarMessage

/-- What the bar shows. -/
inductive BarObs
  | moved (position : ℕ)
  | line (interval : IntervalStats)

/-- The interval that was received. -/
def BarObs.line? : BarObs → Option IntervalStats
  | .moved _ => none
  | .line interval => some interval

/-- The position that was set. -/
def BarObs.position? : BarObs → Option ℕ
  | .moved position => some position
  | .line _ => none

section Step

variable (cfg : RunConfig)

/-- One step of the loop. Its own steps are ticks, with the time since the start. -/
def barStep (s : BarState) :
    Pipe.Input IntervalStats (ViewAction ℕ) → Option (BarState × List BarObs)
  | .own (.own elapsed) =>
    match s.pc with
    | .looping =>
      if s.elapsed ≤ elapsed then
        let elapsedMs := asMillis elapsed
        let position := min elapsedMs cfg.totalMs
        let message :=
          if elapsedMs < asMillis cfg.warmup then .warmingUpFor (asMillis cfg.warmup - elapsedMs)
          else s.message
        some ({ s with elapsed := elapsed, position := position, message := message },
          [.moved position])
      else none
    | _ => none
  | .recv none =>
    match s.pc with
    | .looping => some (s, []) -- `continue`
    | _ => none
  | .recv (some interval) =>
    match s.pc with
    | .looping =>
      let position := cfg.positionOf interval
      some ({ s with position := position, message := .interval interval },
        [.moved position, .line interval])
    | _ => none
  | .own (.result r) =>
    match s.pc with
    | .looping =>
      match r with
      | .ok report =>
        some ({ s with
          pc := .returned r
          position := cfg.totalMs
          message := .complete report.aggregate }, [.moved cfg.totalMs])
      | .error _ => some ({ s with pc := .returned r }, [])
    | _ => none

/-- What a step does. -/
inductive BarEffect (s : BarState) :
    Pipe.Input IntervalStats (ViewAction ℕ) → BarState → List BarObs → Prop
  | tick (elapsed : ℕ) (message : BarMessage) (hpc : s.pc = .looping) :
      BarEffect s (.own (.own elapsed))
        { s with
          elapsed := elapsed
          position := min (asMillis elapsed) cfg.totalMs
          message := message } [.moved (min (asMillis elapsed) cfg.totalMs)]
  | idle (hpc : s.pc = .looping) : BarEffect s (.recv none) s []
  | line (interval : IntervalStats) (hpc : s.pc = .looping) :
      BarEffect s (.recv (some interval))
        { s with position := cfg.positionOf interval, message := .interval interval }
        [.moved (cfg.positionOf interval), .line interval]
  | complete (report : BenchmarkReport) (hpc : s.pc = .looping) :
      BarEffect s (.own (.result (.ok report)))
        { s with
          pc := .returned (.ok report)
          position := cfg.totalMs
          message := .complete report.aggregate } [.moved cfg.totalMs]
  | failed (e : RunError) (hpc : s.pc = .looping) :
      BarEffect s (.own (.result (.error e))) { s with pc := .returned (.error e) } []

variable {cfg}

theorem barStep_effect {s s' : BarState} {i : Pipe.Input IntervalStats (ViewAction ℕ)}
    {o : List BarObs} (h : barStep cfg s i = some (s', o)) : BarEffect cfg s i s' o := by
  unfold barStep at h
  split at h
  · split at h
    · rename_i hpc
      split_ifs at h
      obtain ⟨rfl, rfl⟩ := Prod.mk.inj (Option.some.inj h)
      exact .tick _ _ hpc
    · cases h
  · split at h
    · rename_i hpc
      obtain ⟨rfl, rfl⟩ := Prod.mk.inj (Option.some.inj h)
      exact .idle hpc
    · cases h
  · split at h
    · rename_i hpc
      obtain ⟨rfl, rfl⟩ := Prod.mk.inj (Option.some.inj h)
      exact .line _ hpc
    · cases h
  · split at h
    · rename_i hpc
      split at h <;> obtain ⟨rfl, rfl⟩ := Prod.mk.inj (Option.some.inj h)
      · exact .complete _ hpc
      · exact .failed _ hpc
    · cases h

variable (cfg)

/-- `run_with_progress` -/
def progressBar : RunView BarState ℕ BarObs where
  machine := ⟨⟨.looping, 0, 0, .warmingUp⟩, barStep cfg⟩
  received := BarObs.line?
  received_recv h := by cases barStep_effect h <;> rfl
  received_own h := by cases barStep_effect h <;> rfl

end Step

/-! ## What the bar shows -/

/-- The lines that were printed. -/
def linesOf (t : List BarObs) : List IntervalStats :=
  t.filterMap BarObs.line?

/-- The positions that were set. -/
def positionsOf (t : List BarObs) : List ℕ :=
  t.filterMap BarObs.position?

theorem RunConfig.positionOf_le (cfg : RunConfig) (interval : IntervalStats) :
    cfg.positionOf interval ≤ cfg.totalMs :=
  min_le_right _ _

theorem RunConfig.positionOf_mono (cfg : RunConfig) {i i' : IntervalStats}
    (h : i.endMs ≤ i'.endMs) : cfg.positionOf i ≤ cfg.positionOf i' :=
  min_le_min_right _ (saturatingAdd_mono _ (min_le_min_right _ h))

/-- Each position is within the bar. -/
theorem positions_le {cfg : RunConfig} {t : List BarObs} {s : BarState}
    (h : (progressBar cfg).machine.Reach t s) : ∀ p ∈ positionsOf t, p ≤ cfg.totalMs := by
  refine Machine.Reach.invariant (M := (progressBar cfg).machine)
    (I := fun t _ => ∀ p ∈ positionsOf t, p ≤ cfg.totalMs) (by simp [positionsOf])
    (fun {t s i s' o} _ ih hstep => ?_) h
  have ho : ∀ p ∈ positionsOf o, p ≤ cfg.totalMs := by
    cases barStep_effect hstep with
    | tick elapsed message hpc => simp [positionsOf, BarObs.position?]
    | line interval hpc => simp [positionsOf, BarObs.position?, cfg.positionOf_le]
    | complete report hpc => simp [positionsOf, BarObs.position?]
    | idle hpc | failed e hpc => simp [positionsOf]
  intro p hp
  rw [positionsOf, List.filterMap_append, List.mem_append] at hp
  exact hp.elim (ih p) (ho p)

/-- The intervals of a run end later and later. -/
theorem intervals_endMs {ι : Type} [DecidableEq ι] {cfg : LoopConfig} {handles : List ι}
    {t : List EngineObs} {s : EngineState ι} (h : (engine cfg handles).Reach t s) :
    (s.loop.intervals.Pairwise fun i i' => i.endMs ≤ i'.endMs) ∧
      ∀ i ∈ s.loop.intervals, i.endMs ≤ (s.clock - cfg.measurementStart) / 1000000 := by
  refine Machine.Reach.invariant (M := engine cfg handles)
    (I := fun _ s => (s.loop.intervals.Pairwise fun i i' => i.endMs ≤ i'.endMs) ∧
      ∀ i ∈ s.loop.intervals, i.endMs ≤ (s.clock - cfg.measurementStart) / 1000000)
    ⟨.nil, fun i hi => by cases hi⟩ (fun {_ s _ s' _} _ ih hstep => ?_) h
  cases engineStep_effect hstep with
  | event event hpc =>
    dsimp only
    rw [intervals_loopStep_event]
    exact ih
  | tick now hpc hnow =>
    have hlater : ∀ i ∈ s.loop.intervals, i.endMs ≤ (now - cfg.measurementStart) / 1000000 :=
      fun i hi => (ih.2 i hi).trans (Nat.div_le_div_right (Nat.sub_le_sub_right hnow _))
    dsimp only [loopStep]
    rcases Nat.lt_or_ge now cfg.measurementStart with hlt | hge
    · rw [onTick_of_lt hlt]
      exact ⟨ih.1, hlater⟩
    · rw [onTick_of_le hge]
      refine ⟨List.pairwise_append.mpr ⟨ih.1, List.pairwise_singleton _ _, fun i hi i' hi' => ?_⟩,
        fun i hi => ?_⟩
      · rw [List.mem_singleton.mp hi']
        exact hlater i hi
      · rcases List.mem_append.mp hi with hold | hnew
        · exact hlater i hold
        · rw [List.mem_singleton.mp hnew]
          exact le_rfl
  | close hpc | joined _ _ _ _ _ | failed _ _ _ _ _ _ | finish hpc => exact ih

/-! ## The command with the bar -/

section BarCommand

variable {ι σ α ω : Type} [DecidableEq ι] {S : StreamTasks ι σ α ω} {cfg : RunConfig} {started : ℕ}
  {t : List (Pipe.Obs (Pipe.Obs (ι × ω) EngineObs) BarObs)}
  {s : Pipe.State (Pipe.State σ PacketEvent (EngineState ι)) IntervalStats BarState}

/-- What `run_with_progress` returns is what the benchmark returned, and with a report the bar is
full. -/
def BarEnds (cfg : RunConfig)
    (s : Pipe.State (Pipe.State σ PacketEvent (EngineState ι)) IntervalStats BarState) : Prop :=
  ∀ r, s.consumer.pc = .returned r → s.producer.consumer.result cfg = some r ∧
    ∀ report, r = .ok report → s.consumer.position = cfg.totalMs ∧
      s.consumer.message = .complete report.aggregate

theorem barEnds_reach (h : (runCommand S cfg started (progressBar cfg)).machine.Reach t s) :
    BarEnds cfg s := by
  refine Machine.Reach.invariant (M := (runCommand S cfg started (progressBar cfg)).machine)
    (I := fun _ s => BarEnds cfg s) (fun _ hr => by cases hr)
    (fun {_ s _ s' _} _ ih hstep => ?_) h
  cases Pipe.step_effect hstep with
  | produce a p o hp => exact fun r hr => ⟨(result_step hp (ih r hr).1).1, (ih r hr).2⟩
  | recv m channel c o hchannel hclosed hc =>
    intro r hr
    cases barStep_effect hc with
    | idle hpc | line interval hpc => simp [hpc] at hr
  | own b c o hallows hc =>
    intro r hr
    cases barStep_effect hc with
    | tick elapsed message hpc => simp [hpc] at hr
    | complete report hpc =>
      obtain rfl := BarPc.returned.inj hr
      have hresult : s.producer.consumer.result cfg = some (.ok report) :=
        of_decide_eq_true hallows
      refine ⟨hresult, fun report' hreport => ?_⟩
      obtain rfl := Except.ok.inj hreport
      exact ⟨rfl, rfl⟩
    | failed e hpc =>
      obtain rfl := BarPc.returned.inj hr
      have hresult : s.producer.consumer.result cfg = some (.error e) := of_decide_eq_true hallows
      exact ⟨hresult, fun report hreport => by cases hreport⟩

/-- In every run of the command with the bar, however its streams, the engine, the timer and the
loop of the bar are interleaved : each position is within the bar, the lines are those of the first
intervals of the run, each once and in order, and each puts the bar no earlier than the one before.
The result is that of the benchmark. If it is a report, then all streams returned `Ok`, the report
is that of what the engine took, the bar is full and shows the aggregate, and only the intervals
that are left in the channel have no line. -/
theorem progressBar_reports
    (h : (runCommand S cfg started (progressBar cfg)).machine.Reach t s) :
    (∀ p ∈ positionsOf (Pipe.consumed t), p ≤ cfg.totalMs) ∧
    s.producer.consumer.loop.intervals = linesOf (Pipe.consumed t) ++ s.channel ∧
    ((linesOf (Pipe.consumed t)).map cfg.positionOf).Pairwise (· ≤ ·) ∧
    ∀ r, s.consumer.pc = .returned r → s.producer.consumer.result cfg = some r ∧
      ∀ report, r = .ok report →
        (∀ i, S.ended s.producer.producer i = some .returned) ∧
        report = benchmarkReport cfg started (runInputs (Pipe.produced t)) ∧
        s.consumer.position = cfg.totalMs ∧
        s.consumer.message = .complete report.aggregate ∧
        report.intervals = linesOf (Pipe.consumed t) ++ s.channel := by
  have hintervals : s.producer.consumer.loop.intervals =
      linesOf (Pipe.consumed t) ++ s.channel := command_intervals h
  refine ⟨positions_le (Pipe.consumer_reach h), hintervals, ?_, fun r hpc => ?_⟩
  · have hsorted := (intervals_endMs (Pipe.consumer_reach (Pipe.producer_reach h))).1
    rw [hintervals] at hsorted
    exact List.pairwise_map.mpr ((List.pairwise_append.mp hsorted).1.imp cfg.positionOf_mono)
  · obtain ⟨hresult, hends⟩ := barEnds_reach h r hpc
    refine ⟨hresult, fun report hr => ?_⟩
    obtain ⟨hposition, hmessage⟩ := hends report hr
    rw [hr] at hresult
    obtain ⟨hreport, hreported, hreturned⟩ := returned_report (Pipe.producer_reach h) hresult
    exact ⟨hreturned, hreport, hposition, hmessage, hreported.trans hintervals⟩

end BarCommand

/-- An interval is made, and the end is taken before it. -/
def lastLineMissing : List (Pipe.Action (Pipe.Action (Fin 2) (EngineAction (Fin 2)))
    (ViewAction ℕ)) :=
  [[.own (.own 50000000), .produce (.own (.tick 350000000)), .own (.own 350000000),
      .produce .recv],
    quietTasks.handles.map fun i => .produce (.own (.join i .returned)),
    [.produce (.own .finish), .own (.result (.ok quietReport))]].flatten

theorem lastLineMissing_exec :
    ((runCommand quietTasks lostWarmup 0 (progressBar lostWarmup)).machine.exec
      (runCommand quietTasks lostWarmup 0 (progressBar lostWarmup)).machine.init
        lastLineMissing).map (fun r => (r.1.consumer.pc matches .returned (.ok _),
          r.1.channel.length)) = some (true, 1) := by
  decide +kernel

theorem progressBar_reports_lastLineMissing :
    ∃ t s report,
      (runCommand quietTasks lostWarmup 0 (progressBar lostWarmup)).machine.Reach t s ∧
      s.consumer.pc = .returned (.ok report) ∧
      report.intervals = linesOf (Pipe.consumed t) ++ s.channel ∧ s.channel.length = 1 := by
  obtain ⟨⟨s, t⟩, hexec, hshow⟩ := Option.map_eq_some_iff.mp lastLineMissing_exec
  have hreach := Machine.reach_exec hexec
  obtain ⟨hreturned, hlength⟩ := Prod.mk.inj hshow
  dsimp only at hreturned
  split at hreturned
  · rename_i report hpc
    have hreports := (progressBar_reports hreach).2.2.2 _ hpc
    exact ⟨t, s, report, hreach, hpc, (hreports.2 report rfl).2.2.2.2, hlength⟩
  · cases hreturned

end Ipfusch
