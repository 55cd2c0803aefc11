import Ipfusch.Benchmark
import Ipfusch.Quantiles
import Ipfusch.Ranking

/-!
# Sweeps

`run_sweep` runs each combination of a stream count and a rate, and ranks the reports by a
score. A run is a parameter here : what `run_benchmark` returns, for each run in the order of
the runs.

`sweep_ranks` : the reports are kept as they are, with one recommendation more (`Executed`), and
ranked (`Ranked`). No run that is left out of the recommendations has a higher score than one that
is in them, and with any objective a run that is better than another is placed before it
(`scoreRun_lt`).
-/

namespace Ipfusch

/-! ## Reports of runs -/

/-- `RunConfigSnapshot` -/
structure RunConfigSnapshot where
  streams : UInt16
  durationMs : ℕ
  warmupMs : ℕ
  payloadBytes : UInt64
  rateBps : Option UInt64
  intervalMs : ℕ

/-- What `run_benchmark` returns : the report with the configuration of the run and the
recommendations. -/
structure BenchmarkReport extends RunReport where
  config : RunConfigSnapshot
  recommendations : List Recommendation

/-- What `run_benchmark` returns for some inputs of its loop, if all streams end well. -/
def benchmarkReport (cfg : RunConfig) (started : ℕ) (inputs : List LoopInput) :
    BenchmarkReport :=
  let (resolvedRate, recommendations) := resolveRate cfg.rate cfg.transport
  let report := runBenchmark (cfg.loopConfig started) inputs
  { report with
    config := {
      streams := cfg.streams
      durationMs := cfg.duration / 1000000
      warmupMs := cfg.warmup / 1000000
      payloadBytes := cfg.payloadBytes
      rateBps := resolvedRate
      intervalMs := cfg.interval / 1000000 }
    recommendations := recommendations ++ [
      if report.aggregate.lossPct > 1 then {
        label := "reduce target rate"
        score := max (100 - report.aggregate.lossPct) 0
        reason := "packet loss above 1% indicates saturation" }
      else {
        label := "increase stream count"
        score := report.aggregate.throughputBps / 1000000000
        reason := "loss remains low; additional streams may raise throughput" }] }

/-! ## Scores -/

/-- `SweepObjective` -/
inductive SweepObjective
  | throughput
  | maxEfficiency
  | balanced
  deriving DecidableEq, Repr

/-- `{:?}` of an objective. -/
def SweepObjective.debug : SweepObjective → String
  | .throughput => "Throughput"
  | .maxEfficiency => "MaxEfficiency"
  | .balanced => "Balanced"

/-- `score_run` -/
def scoreRun (objective : SweepObjective) (agg : AggregateStats) : ℚ :=
  let throughputGbps := agg.throughputBps / 1000000000
  match objective with
  | .throughput => throughputGbps
  | .maxEfficiency => throughputGbps / (1 + agg.p99Ms + agg.lossPct)
  | .balanced => throughputGbps - (agg.p99Ms * (1 / 100) + agg.lossPct * (5 / 100))

/-- `rate_label` -/
def rateLabel : RateMode → String
  | .auto => "auto"
  | .bps v => toString v

/-! ## The sweep -/

/-- `SweepConfig` -/
structure SweepConfig where
  transport : Transport
  streams : List UInt16
  rates : List RateMode
  duration : ℕ
  warmup : ℕ
  payloadBytes : UInt64
  token : Option String
  interval : ℕ
  objective : SweepObjective
  top : ℕ

/-- `SweepResult` -/
structure SweepResult where
  runs : List BenchmarkReport
  topRecommendations : List Recommendation

namespace SweepConfig

variable (cfg : SweepConfig)

/-- The configuration of a run. -/
def runConfig (streams : UInt16) (rate : RateMode) : RunConfig where
  transport := cfg.transport
  streams := streams
  duration := cfg.duration
  warmup := cfg.warmup
  payloadBytes := cfg.payloadBytes
  rate := rate
  token := cfg.token
  interval := cfg.interval

/-- The score of a report. -/
def score (report : BenchmarkReport) : ℚ :=
  scoreRun cfg.objective report.aggregate

/-- The recommendation that a run adds to its report. -/
def scored (streams : UInt16) (rate : RateMode) (report : BenchmarkReport) : BenchmarkReport :=
  { report with
    recommendations := report.recommendations ++ [{
      label := "streams=" ++ toString streams ++ ", rate=" ++ rateLabel rate
      score := cfg.score report
      reason := "score for " ++ cfg.objective.debug ++ " objective" }] }

/-- An entry of `top_recommendations`. -/
def recommendation (report : BenchmarkReport) : Recommendation where
  label := "streams=" ++ toString report.config.streams ++ ",rate=" ++
    toString (report.config.rateBps.getD 0) ++ "bps"
  score := cfg.score report
  reason := "top-ranked sweep result"

end SweepConfig

section Sweep

variable {ε : Type} (run : ℕ → RunConfig → Except ε BenchmarkReport) (cfg : SweepConfig)

/-- One run of a sweep, after others. -/
def sweepRun (runs : List BenchmarkReport) (streams : UInt16) (rate : RateMode) :
    Except ε (List BenchmarkReport) := do
  let report ← run runs.length (cfg.runConfig streams rate)
  return runs ++ [cfg.scored streams rate report]

/-- `run_sweep` -/
def runSweep : Except ε SweepResult := do
  let runs ← cfg.streams.foldlM (fun runs streams =>
    cfg.rates.foldlM (fun runs rate => sweepRun run cfg runs streams rate) runs) []
  let runs := runs.mergeSort fun a b => cfg.score b ≤ cfg.score a
  return { runs := runs, topRecommendations := (runs.take cfg.top).map cfg.recommendation }

end Sweep

/-! ## Better runs have higher scores -/

/-- Throughput, percentile and loss are not negative. -/
structure AggregateStats.NonNegative (a : AggregateStats) : Prop where
  throughputBps : 0 ≤ a.throughputBps
  p99Ms : 0 ≤ a.p99Ms
  lossPct : 0 ≤ a.lossPct

/-- More throughput, with a 99th percentile and a loss that are no larger. -/
structure AggregateStats.Dominates (a b : AggregateStats) : Prop where
  throughputBps : b.throughputBps < a.throughputBps
  p99Ms : a.p99Ms ≤ b.p99Ms
  lossPct : a.lossPct ≤ b.lossPct

/-- With any objective a better run has a higher score. -/
theorem scoreRun_lt {a b : AggregateStats} (objective : SweepObjective) (ha : a.NonNegative)
    (hb : b.NonNegative) (h : a.Dominates b) : scoreRun objective b < scoreRun objective a := by
  have hgbps : b.throughputBps / 1000000000 < a.throughputBps / 1000000000 :=
    div_lt_div_of_pos_right h.throughputBps (by norm_num)
  cases objective with
  | throughput => exact hgbps
  | maxEfficiency =>
    have hpos : 0 < 1 + a.p99Ms + a.lossPct := by
      have := ha.p99Ms
      have := ha.lossPct
      linarith
    have hle : 1 + a.p99Ms + a.lossPct ≤ 1 + b.p99Ms + b.lossPct := by
      have := h.p99Ms
      have := h.lossPct
      linarith
    have hnonneg : 0 ≤ b.throughputBps / 1000000000 := div_nonneg hb.throughputBps (by norm_num)
    calc b.throughputBps / 1000000000 / (1 + b.p99Ms + b.lossPct)
        ≤ b.throughputBps / 1000000000 / (1 + a.p99Ms + a.lossPct) :=
          div_le_div_of_nonneg_left hnonneg hpos hle
      _ < a.throughputBps / 1000000000 / (1 + a.p99Ms + a.lossPct) :=
          div_lt_div_of_pos_right hgbps hpos
  | balanced =>
    have := h.p99Ms
    have := h.lossPct
    simp only [scoreRun]
    linarith

/-! ## The runs of a sweep -/

/-- The runs, in their order. -/
def SweepConfig.plan (cfg : SweepConfig) : List (UInt16 × RateMode) :=
  cfg.streams.flatMap fun streams => cfg.rates.map fun rate => (streams, rate)

theorem SweepConfig.length_plan (cfg : SweepConfig) :
    cfg.plan.length = cfg.streams.length * cfg.rates.length := by
  unfold plan
  rw [List.length_flatMap]
  simp

section Runs

variable {ε : Type} {run : ℕ → RunConfig → Except ε BenchmarkReport} {cfg : SweepConfig}

theorem sweepRun_ok {runs : List BenchmarkReport} {streams : UInt16} {rate : RateMode}
    {report : BenchmarkReport} (h : run runs.length (cfg.runConfig streams rate) = .ok report) :
    sweepRun run cfg runs streams rate = .ok (runs ++ [cfg.scored streams rate report]) := by
  unfold sweepRun
  rw [h]
  rfl

theorem sweepRun_error {runs : List BenchmarkReport} {streams : UInt16} {rate : RateMode} {e : ε}
    (h : run runs.length (cfg.runConfig streams rate) = .error e) :
    sweepRun run cfg runs streams rate = .error e := by
  unfold sweepRun
  rw [h]
  rfl

/-- The nested loops run the plan. -/
theorem foldlM_plan : ∀ (streams : List UInt16) (runs : List BenchmarkReport),
    streams.foldlM (fun runs streams =>
      cfg.rates.foldlM (fun runs rate => sweepRun run cfg runs streams rate) runs) runs =
    (streams.flatMap fun streams => cfg.rates.map fun rate => (streams, rate)).foldlM
      (fun runs entry => sweepRun run cfg runs entry.1 entry.2) runs
  | [], _ => rfl
  | s :: streams, runs => by
    rw [List.foldlM_cons, List.flatMap_cons, List.foldlM_append, List.foldlM_map]
    exact congrArg _ (funext fun runs' => foldlM_plan streams runs')

/-- The runs from a plan all end well, with these reports. -/
def RunsOk (run : ℕ → RunConfig → Except ε BenchmarkReport) (cfg : SweepConfig) (first : ℕ)
    (plan : List (UInt16 × RateMode)) (reports : List BenchmarkReport) : Prop :=
  reports.length = plan.length ∧ ∀ i entry report, plan[i]? = some entry →
    reports[i]? = some report → run (first + i) (cfg.runConfig entry.1 entry.2) = .ok report

theorem RunsOk.head {first : ℕ} {entry : UInt16 × RateMode} {plan : List (UInt16 × RateMode)}
    {report : BenchmarkReport} {reports : List BenchmarkReport}
    (h : RunsOk run cfg first (entry :: plan) (report :: reports)) :
    run first (cfg.runConfig entry.1 entry.2) = .ok report :=
  h.2 0 entry report rfl rfl

theorem RunsOk.tail {first : ℕ} {entry : UInt16 × RateMode} {plan : List (UInt16 × RateMode)}
    {report : BenchmarkReport} {reports : List BenchmarkReport}
    (h : RunsOk run cfg first (entry :: plan) (report :: reports)) :
    RunsOk run cfg (first + 1) plan reports :=
  ⟨Nat.succ.inj h.1, fun i entry' report' hentry hreport => by
    rw [Nat.add_right_comm]
    exact h.2 (i + 1) entry' report' hentry hreport⟩

/-- The reports in the order of the runs, with their recommendations. -/
def executed (cfg : SweepConfig) (plan : List (UInt16 × RateMode))
    (reports : List BenchmarkReport) : List BenchmarkReport :=
  List.zipWith (fun entry report => cfg.scored entry.1 entry.2 report) plan reports

theorem foldlM_of_runsOk : ∀ (plan : List (UInt16 × RateMode)) (reports runs : List BenchmarkReport),
    RunsOk run cfg runs.length plan reports →
    plan.foldlM (fun runs entry => sweepRun run cfg runs entry.1 entry.2) runs =
      .ok (runs ++ executed cfg plan reports)
  | [], [], runs, _ => by simp [executed, pure, Except.pure]
  | [], _ :: _, _, h => by simp [RunsOk] at h
  | _ :: _, [], _, h => by simp [RunsOk] at h
  | entry :: plan, report :: reports, runs, h => by
    have htail : RunsOk run cfg (runs ++ [cfg.scored entry.1 entry.2 report]).length plan
        reports := by
      rw [List.length_append, List.length_singleton]
      exact h.tail
    rw [List.foldlM_cons, sweepRun_ok h.head]
    refine (foldlM_of_runsOk plan reports _ htail).trans ?_
    rw [List.append_assoc]
    rfl

/-- A run that fails ends the sweep. -/
theorem foldlM_of_error : ∀ (plan : List (UInt16 × RateMode)) (runs : List BenchmarkReport) {i : ℕ}
    {entry : UInt16 × RateMode} {e : ε}, plan[i]? = some entry →
    run (runs.length + i) (cfg.runConfig entry.1 entry.2) = .error e →
    ∃ e', plan.foldlM (fun runs entry => sweepRun run cfg runs entry.1 entry.2) runs = .error e'
  | [], _, _, _, _, hentry, _ => by simp at hentry
  | entry' :: plan, runs, i, entry, e, hentry, herror => by
    rw [List.foldlM_cons]
    cases hrun : run runs.length (cfg.runConfig entry'.1 entry'.2) with
    | error e' =>
      rw [sweepRun_error hrun]
      exact ⟨e', rfl⟩
    | ok report =>
      rw [sweepRun_ok hrun]
      cases i with
      | zero =>
        obtain rfl : entry' = entry := by simpa using hentry
        rw [Nat.add_zero, hrun] at herror
        exact absurd herror (by simp)
      | succ i =>
        have hnext : run ((runs ++ [cfg.scored entry'.1 entry'.2 report]).length + i)
            (cfg.runConfig entry.1 entry.2) = .error e := by
          rw [List.length_append, List.length_singleton, Nat.add_right_comm]
          exact herror
        exact foldlM_of_error plan _ (by simpa using hentry) hnext

/-! ## The result -/

/-- What a sweep keeps of a report : all of it, and one recommendation more, with its score. -/
structure Kept (cfg : SweepConfig) (entry : UInt16 × RateMode) (report kept : BenchmarkReport) :
    Prop where
  toRunReport : kept.toRunReport = report.toRunReport
  config : kept.config = report.config
  recommendations : kept.recommendations = report.recommendations ++ [{
    label := "streams=" ++ toString entry.1 ++ ", rate=" ++ rateLabel entry.2
    score := scoreRun cfg.objective report.aggregate
    reason := "score for " ++ cfg.objective.debug ++ " objective" }]

/-- What a sweep has of the reports of its runs, in the order of the runs. -/
structure Executed (cfg : SweepConfig) (reports runs : List BenchmarkReport) : Prop where
  length : runs.length = cfg.streams.length * cfg.rates.length
  kept : ∀ {i : ℕ} {entry : UInt16 × RateMode} {report kept : BenchmarkReport},
    cfg.plan[i]? = some entry → reports[i]? = some report → runs[i]? = some kept →
    Kept cfg entry report kept

/-- The recommendation of a run that is listed, with its score. -/
structure Recommends (cfg : SweepConfig) (entry : Recommendation) (run : BenchmarkReport) :
    Prop where
  label : entry.label = "streams=" ++ toString run.config.streams ++ ",rate=" ++
    toString (run.config.rateBps.getD 0) ++ "bps"
  score : entry.score = scoreRun cfg.objective run.aggregate
  reason : entry.reason = "top-ranked sweep result"

/-- The result of a sweep that has some reports, in the order of the runs. -/
structure Ranked (cfg : SweepConfig) (runs : List BenchmarkReport) (result : SweepResult) :
    Prop where
  perm : result.runs.Perm runs
  sorted : result.runs.Pairwise fun a b =>
    scoreRun cfg.objective b.aggregate ≤ scoreRun cfg.objective a.aggregate
  stable : ∀ v, result.runs.filter (fun r => scoreRun cfg.objective r.aggregate = v) =
    runs.filter fun r => scoreRun cfg.objective r.aggregate = v
  top : List.Forall₂ (Recommends cfg) result.topRecommendations (result.runs.take cfg.top)
  length_top : result.topRecommendations.length = min cfg.top runs.length
  top_best : ∀ a ∈ result.runs.take cfg.top, ∀ b ∈ result.runs.drop cfg.top,
    scoreRun cfg.objective b.aggregate ≤ scoreRun cfg.objective a.aggregate
  dominates : ∀ {i j : ℕ} {a b : BenchmarkReport}, result.runs[i]? = some a →
    result.runs[j]? = some b → a.aggregate.NonNegative → b.aggregate.NonNegative →
    a.aggregate.Dominates b.aggregate → i < j

/-- Nothing of a report is lost. -/
theorem executed_executed {reports : List BenchmarkReport}
    (h : reports.length = cfg.plan.length) : Executed cfg reports (executed cfg cfg.plan reports) where
  length := by rw [executed, List.length_zipWith, h, Nat.min_self, cfg.length_plan]
  kept {i entry report kept} hentry hreport hkept := by
    unfold executed at hkept
    rw [List.getElem?_zipWith, hentry, hreport] at hkept
    obtain rfl := Option.some.inj hkept
    exact ⟨rfl, rfl, rfl⟩

theorem ranked_rank (runs : List BenchmarkReport) :
    Ranked cfg runs {
      runs := Ranking.rank cfg.score runs
      topRecommendations :=
        ((Ranking.rank cfg.score runs).take cfg.top).map cfg.recommendation } where
  perm := Ranking.perm_rank cfg.score runs
  sorted := Ranking.pairwise_rank cfg.score runs
  stable := Ranking.filter_rank cfg.score runs
  top := List.forall₂_map_left_iff.mpr (List.forall₂_same.mpr fun _ _ => ⟨rfl, rfl, rfl⟩)
  length_top := by rw [List.length_map, List.length_take, Ranking.length_rank]
  top_best _ ha _ hb := Ranking.le_of_mem_take cfg.score ha hb
  dominates hi hj ha hb hlt :=
    Ranking.lt_of_score_lt cfg.score hi hj (scoreRun_lt cfg.objective ha hb hlt)

/-- If all runs of a sweep end well, their reports are kept and ranked. If one fails, there is no
result. -/
theorem sweep_ranks (run : ℕ → RunConfig → Except ε BenchmarkReport) (cfg : SweepConfig) :
    (∀ reports, RunsOk run cfg 0 cfg.plan reports →
      ∃ runs result, runSweep run cfg = .ok result ∧ Executed cfg reports runs ∧
        Ranked cfg runs result) ∧
    ∀ i entry e, cfg.plan[i]? = some entry →
      run i (cfg.runConfig entry.1 entry.2) = .error e → ∃ e', runSweep run cfg = .error e' := by
  unfold runSweep
  rw [foldlM_plan]
  constructor
  · intro reports hruns
    have hfold := foldlM_of_runsOk cfg.plan reports [] hruns
    rw [List.nil_append] at hfold
    exact ⟨_, _, by rw [← SweepConfig.plan, hfold]; rfl, executed_executed hruns.1, ranked_rank _⟩
  · intro i entry e hentry herror
    obtain ⟨e', hfold⟩ := foldlM_of_error cfg.plan [] hentry (by simpa using herror)
    exact ⟨e', by rw [← SweepConfig.plan, hfold]; rfl⟩

end Runs

/-- Two rates, of which the best run is recommended. -/
def twoRates : SweepConfig :=
  ⟨.udp, [1], [.bps 1000, .bps 2000], 1000000000, 0, 64, none, 100000000, .balanced, 1⟩

/-- A report with this throughput. -/
def reportOf (throughputBps : ℚ) : BenchmarkReport :=
  { intervals := []
    streams := []
    aggregate := ⟨10, 10, 0, 0, 640, throughputBps, 10, 0, 0, 1, 1, 1⟩
    latencyHistogram := []
    config := ⟨1, 1000, 0, 64, none, 100⟩
    recommendations := [] }

/-- The second run is the better one. -/
def twoRuns (n : ℕ) (_ : RunConfig) : Except String BenchmarkReport :=
  .ok (reportOf (1000 * (n + 1)))

theorem reportOf_dominates : (reportOf 2000).aggregate.Dominates (reportOf 1000).aggregate :=
  ⟨by decide +kernel, le_rfl, le_rfl⟩

/-- It is placed first. -/
theorem sweep_ranks_twoRates : ∃ runs result, runSweep twoRuns twoRates = .ok result ∧
    Executed twoRates [reportOf 1000, reportOf 2000] runs ∧ Ranked twoRates runs result ∧
    ∀ {i j : ℕ} {a b : BenchmarkReport}, result.runs[i]? = some a → result.runs[j]? = some b →
      a.toRunReport = (reportOf 2000).toRunReport → b.toRunReport = (reportOf 1000).toRunReport →
      i < j := by
  have hruns : RunsOk twoRuns twoRates 0 twoRates.plan [reportOf 1000, reportOf 2000] := by
    refine ⟨rfl, fun i entry report _ hreport => ?_⟩
    match i with
    | 0 =>
      obtain rfl := Option.some.inj hreport
      simp [twoRuns]
    | 1 =>
      obtain rfl := Option.some.inj hreport
      norm_num [twoRuns]
    | i + 2 => cases hreport
  obtain ⟨runs, result, hresult, hexecuted, hranked⟩ := (sweep_ranks twoRuns twoRates).1 _ hruns
  refine ⟨runs, result, hresult, hexecuted, hranked, fun hi hj ha hb => ?_⟩
  have hpos : ∀ v : ℚ, 0 ≤ v → (reportOf v).aggregate.NonNegative := fun v hv =>
    ⟨hv, zero_le_one, le_rfl⟩
  refine hranked.dominates hi hj ?_ ?_ ?_
  · rw [ha]
    exact hpos 2000 (by norm_num)
  · rw [hb]
    exact hpos 1000 (by norm_num)
  · rw [ha, hb]
    exact reportOf_dominates

/-! ## What a run reports is not negative -/

theorem latency_nonneg {event : PacketEvent} {latencyMs : ℚ} (h : event.latency = some latencyMs) :
    0 ≤ latencyMs := by
  obtain ⟨recvNs, -, rfl⟩ := Option.map_eq_some_iff.mp h
  unfold Ipfusch.latencyMs
  positivity

theorem quantile_nonneg {values : List ℚ} (h : ∀ v ∈ values, 0 ≤ v) (q : ℚ) :
    0 ≤ quantile values q := by
  by_cases hnil : values = []
  · rw [hnil, quantile_nil]
  · exact h _ (isRank_quantile hnil q).mem

/-- Throughput, percentile and loss of a run are not negative, as its scores assume. -/
theorem nonNegative_runBenchmark (cfg : LoopConfig) (inputs : List LoopInput) :
    (runBenchmark cfg inputs).aggregate.NonNegative := by
  rw [(runBenchmark_eq cfg inputs).2.1]
  have hconserves := conserves_foldl (measuredEvents inputs)
  set m := (measuredEvents inputs).foldl applyEvent {}
  have hlatencies : ∀ v ∈ m.streams.toList.flatMap fun entry => entry.2.latenciesMs, 0 ≤ v := by
    intro v hv
    obtain ⟨entry, hentry, hv⟩ := List.mem_flatMap.mp hv
    rw [(hconserves.streams hentry).latenciesMs] at hv
    obtain ⟨event, -, hevent⟩ := List.mem_filterMap.mp hv
    exact latency_nonneg hevent
  refine ⟨?_, ?_, ?_⟩
  · unfold buildAggregate durationSecs
    positivity
  · have hp99 := percentile_buildAggregate m.streams m.totals (durationSecs cfg.duration) .p99
    exact (quantile_nonneg hlatencies _).trans_eq hp99.symm
  · unfold buildAggregate lossPct
    dsimp only
    split_ifs <;> positivity

/-- So in a sweep of such runs a better one is always before a worse one. -/
theorem Ranked.lt_of_dominates {cfg : SweepConfig} {runs : List BenchmarkReport}
    {result : SweepResult} (h : Ranked cfg runs result)
    (hruns : ∀ r ∈ runs, ∃ runCfg started inputs,
      r.toRunReport = (benchmarkReport runCfg started inputs).toRunReport)
    {i j : ℕ} {a b : BenchmarkReport} (ha : result.runs[i]? = some a)
    (hb : result.runs[j]? = some b) (hdominates : a.aggregate.Dominates b.aggregate) : i < j := by
  have hnonneg : ∀ r ∈ result.runs, r.aggregate.NonNegative := by
    intro r hr
    obtain ⟨runCfg, started, inputs, hr⟩ := hruns r (h.perm.subset hr)
    rw [hr]
    exact nonNegative_runBenchmark _ _
  exact h.dominates ha hb (hnonneg a (List.mem_of_getElem? ha))
    (hnonneg b (List.mem_of_getElem? hb)) hdominates

end Ipfusch
