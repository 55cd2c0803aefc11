import Ipfusch.Dashboard
import Ipfusch.RunCommand

/-!
# The dashboard of a run

With `--tui` the command spawns the benchmark, runs the dashboard on its intervals until that ends,
and then awaits the benchmark. When the dashboard ends, the receiver goes away, and the intervals
that are sent after that are lost.

`dashboardRun_reports` : the dashboard gets the first intervals of the run, each once and in order,
and the command returns what the benchmark returned. `dashboardRun_showsAll` : if the user does not
quit, and `recv` takes no update while the dashboard is paused, then at the end the dashboard shows
the last 120 intervals of the report.
-/

namespace Ipfusch

/-! ## The command -/

/-- Why the command fails. -/
inductive TuiError
  /-- `run_dashboard(rx).await?` -/
  | dashboard
  | benchmark (e : RunError)
  deriving DecidableEq, Repr

/-- Where `main` is. -/
inductive TuiPc
  | dashboard
  /-- `restore_terminal(&mut terminal)?` -/
  | restore
  /-- `runner.await` -/
  | runner
  | returned (result : Except TuiError BenchmarkReport)

/-- The benchmark, the dashboard and `main`. -/
structure TuiState (σ ι : Type) where
  run : Pipe.State σ PacketEvent (EngineState ι)
  dashboard : DashboardState
  main : TuiPc

/-- What can come next. -/
inductive TuiAction (α ι : Type)
  | run (a : Pipe.Action α (EngineAction ι))
  /-- A step of the dashboard, but for its sender. -/
  | dashboard (a : DashboardAction)
  | restore (restored : Bool)
  /-- `runner.await` returns. -/
  | join

/-- What the command shows. -/
inductive TuiObs (ι ω : Type)
  | run (o : Pipe.Obs (ι × ω) EngineObs)
  | dashboard (o : DashboardObs)

/-- The run's part. -/
def TuiObs.run? {ι ω : Type} : TuiObs ι ω → Option (Pipe.Obs (ι × ω) EngineObs)
  | .run o => some o
  | .dashboard _ => none

/-- The dashboard's part. -/
def TuiObs.dashboard? {ι ω : Type} : TuiObs ι ω → Option DashboardObs
  | .run _ => none
  | .dashboard o => some o

/-- Intervals are sent, and then the sender is gone or not. Nothing arrives once the dashboard has
ended. -/
def DashboardState.offer (d : DashboardState) (intervals : List IntervalStats) (closed : Bool) :
    DashboardState × List DashboardObs :=
  if d.ended then (d, [])
  else ({ d with updates := d.updates ++ intervals, closed := closed }, intervals.map .sent)

/-- It is a step of the sender. -/
def DashboardAction.ofSender : DashboardAction → Bool
  | .send _ | .close => true
  | _ => false

/-- `main` after a step of the dashboard. -/
def mainAfter (a : DashboardAction) (d : DashboardState) : TuiPc :=
  if d.ended then
    match a with
    | .drawFails => .returned (.error .dashboard)
    | _ => .restore
  else .dashboard

section Tui

variable {ι σ α ω : Type} [DecidableEq ι] (S : StreamTasks ι σ α ω) (cfg : RunConfig) (started : ℕ)

/-- One step of the benchmark, of the dashboard or of `main`. -/
def tuiStep (s : TuiState σ ι) : TuiAction α ι → Option (TuiState σ ι × List (TuiObs ι ω))
  | .run a =>
    ((runSystem S (cfg.loopConfig started)).machine.step s.run a).map fun r =>
      let d := s.dashboard.offer (r.2.filterMap progressMessage) (r.1.consumer.result cfg).isSome
      ({ s with run := r.1, dashboard := d.1 }, r.2.map .run ++ d.2.map .dashboard)
  | .dashboard a =>
    match s.main with
    | .dashboard =>
      if a.ofSender then none
      else
        (dashboardStep s.dashboard a).map fun r =>
          ({ s with dashboard := r.1, main := mainAfter a r.1 }, r.2.map .dashboard)
    | _ => none
  | .restore restored =>
    match s.main with
    | .restore =>
      some ({ s with main := if restored then .runner else .returned (.error .dashboard) }, [])
    | _ => none
  | .join =>
    match s.main, s.run.consumer.result cfg with
    | .runner, some (.ok report) => some ({ s with main := .returned (.ok report) }, [])
    | .runner, some (.error e) => some ({ s with main := .returned (.error (.benchmark e)) }, [])
    | _, _ => none

/-- `main`, with `--tui`. -/
def tui : Machine (TuiState σ ι) (TuiAction α ι) (TuiObs ι ω) where
  init := ⟨(runSystem S (cfg.loopConfig started)).machine.init, dashboard.init, .dashboard⟩
  step := tuiStep S cfg started

variable {S cfg started}

/-- What a step does. -/
inductive TuiEffect (S : StreamTasks ι σ α ω) (cfg : RunConfig) (started : ℕ) (s : TuiState σ ι) :
    TuiAction α ι → TuiState σ ι → List (TuiObs ι ω) → Prop
  | run (a : Pipe.Action α (EngineAction ι)) (run : Pipe.State σ PacketEvent (EngineState ι))
      (o : List (Pipe.Obs (ι × ω) EngineObs))
      (hstep : (runSystem S (cfg.loopConfig started)).machine.step s.run a = some (run, o)) :
      TuiEffect S cfg started s (.run a)
        { s with
          run := run
          dashboard := (s.dashboard.offer (o.filterMap progressMessage)
            (run.consumer.result cfg).isSome).1 }
        (o.map .run ++ (s.dashboard.offer (o.filterMap progressMessage)
          (run.consumer.result cfg).isSome).2.map .dashboard)
  | dashboard (a : DashboardAction) (d : DashboardState) (o : List DashboardObs)
      (hmain : s.main = .dashboard) (hsender : a.ofSender = false)
      (hstep : dashboardStep s.dashboard a = some (d, o)) :
      TuiEffect S cfg started s (.dashboard a) { s with dashboard := d, main := mainAfter a d }
        (o.map .dashboard)
  | restored (hmain : s.main = .restore) :
      TuiEffect S cfg started s (.restore true) { s with main := .runner } []
  | restoreFailed (hmain : s.main = .restore) :
      TuiEffect S cfg started s (.restore false)
        { s with main := .returned (.error .dashboard) } []
  | joined (report : BenchmarkReport) (hmain : s.main = .runner)
      (hresult : s.run.consumer.result cfg = some (.ok report)) :
      TuiEffect S cfg started s .join { s with main := .returned (.ok report) } []
  | failed (e : RunError) (hmain : s.main = .runner)
      (hresult : s.run.consumer.result cfg = some (.error e)) :
      TuiEffect S cfg started s .join { s with main := .returned (.error (.benchmark e)) } []

theorem tuiStep_effect {s s' : TuiState σ ι} {a : TuiAction α ι} {o : List (TuiObs ι ω)}
    (h : tuiStep S cfg started s a = some (s', o)) : TuiEffect S cfg started s a s' o := by
  unfold tuiStep at h
  cases a with
  | run a =>
    obtain ⟨⟨run, o'⟩, hstep, h⟩ := Option.map_eq_some_iff.mp h
    obtain ⟨rfl, rfl⟩ := Prod.mk.inj h
    exact .run a run o' hstep
  | dashboard a =>
    dsimp only at h
    split at h
    · rename_i hmain
      split_ifs at h with hsender
      obtain ⟨⟨d, o'⟩, hstep, h⟩ := Option.map_eq_some_iff.mp h
      obtain ⟨rfl, rfl⟩ := Prod.mk.inj h
      exact .dashboard a d o' hmain (Bool.not_eq_true _ ▸ hsender) hstep
    · cases h
  | restore restored =>
    dsimp only at h
    split at h
    · rename_i hmain
      obtain ⟨rfl, rfl⟩ := Prod.mk.inj (Option.some.inj h)
      cases restored with
      | true => exact .restored hmain
      | false => exact .restoreFailed hmain
    · cases h
  | join =>
    dsimp only at h
    split at h
    · rename_i hmain hresult
      obtain ⟨rfl, rfl⟩ := Prod.mk.inj (Option.some.inj h)
      exact .joined _ hmain hresult
    · rename_i hmain hresult
      obtain ⟨rfl, rfl⟩ := Prod.mk.inj (Option.some.inj h)
      exact .failed _ hmain hresult
    · cases h

end Tui

/-! ## What the dashboard gets -/

/-- The dashboard's part of a run. -/
def dashboardPart {ι ω : Type} (t : List (TuiObs ι ω)) : List DashboardObs :=
  t.filterMap TuiObs.dashboard?

/-- The run's part. -/
def runPart {ι ω : Type} (t : List (TuiObs ι ω)) : List (Pipe.Obs (ι × ω) EngineObs) :=
  t.filterMap TuiObs.run?

section Parts

variable {ι ω : Type} (t : List (TuiObs ι ω)) (o : List (Pipe.Obs (ι × ω) EngineObs))
  (o' : List DashboardObs)

@[simp] theorem dashboardPart_append (t' : List (TuiObs ι ω)) :
    dashboardPart (t ++ t') = dashboardPart t ++ dashboardPart t' :=
  List.filterMap_append

@[simp] theorem runPart_append (t' : List (TuiObs ι ω)) :
    runPart (t ++ t') = runPart t ++ runPart t' :=
  List.filterMap_append

@[simp] theorem dashboardPart_run : dashboardPart (o.map .run : List (TuiObs ι ω)) = [] := by
  simp [dashboardPart, List.filterMap_map, Function.comp_def, TuiObs.dashboard?]

@[simp] theorem dashboardPart_dashboard :
    dashboardPart (o'.map .dashboard : List (TuiObs ι ω)) = o' := by
  simp [dashboardPart, List.filterMap_map, Function.comp_def, TuiObs.dashboard?]

@[simp] theorem runPart_run : runPart (o.map .run : List (TuiObs ι ω)) = o := by
  simp [runPart, List.filterMap_map, Function.comp_def, TuiObs.run?]

@[simp] theorem runPart_dashboard : runPart (o'.map .dashboard : List (TuiObs ι ω)) = [] := by
  simp [runPart, List.filterMap_map, Function.comp_def, TuiObs.run?]

end Parts

@[simp] theorem sentUpdates_sent (intervals : List IntervalStats) :
    sentUpdates (intervals.map .sent) = intervals := by
  simp [sentUpdates, List.filterMap_map]

/-- Intervals are sent one by one. -/
theorem dashboard_sends {Q : DashboardState → DashboardAction → Prop}
    (hQ : ∀ d interval, Q d (.send interval)) {t : List DashboardObs} {d : DashboardState}
    (h : dashboard.ReachWhile Q t d) (hended : d.ended = false) (hclosed : d.closed = false)
    (intervals : List IntervalStats) :
    dashboard.ReachWhile Q (t ++ intervals.map .sent)
      { d with updates := d.updates ++ intervals } := by
  induction intervals generalizing t d with
  | nil => simpa using h
  | cons interval intervals ih =>
    have hstep : dashboard.step d (.send interval) =
        some ({ d with updates := d.updates ++ [interval] }, [.sent interval]) := by
      simp [dashboard, dashboardStep, hended, hclosed]
    have hrest := ih (h.step (hQ d interval) hstep) hended hclosed
    simpa using hrest

/-- An offer is a run of the sender. -/
theorem dashboard_offer {Q : DashboardState → DashboardAction → Prop}
    (hsend : ∀ d interval, Q d (.send interval)) (hclose : ∀ d, Q d .close)
    {t : List DashboardObs} {d : DashboardState} (h : dashboard.ReachWhile Q t d)
    {intervals : List IntervalStats} {closed : Bool}
    (hclosed : d.closed = true → intervals = [] ∧ closed = true) :
    dashboard.ReachWhile Q (t ++ (d.offer intervals closed).2) (d.offer intervals closed).1 := by
  unfold DashboardState.offer
  split_ifs with hended
  · simpa using h
  · rw [Bool.not_eq_true] at hended
    cases hd : d.closed with
    | true =>
      obtain ⟨rfl, rfl⟩ := hclosed hd
      simpa [← hd] using h
    | false =>
      have hsent := dashboard_sends hsend h hended hd intervals
      cases closed with
      | false =>
        rw [← hd]
        exact hsent
      | true =>
        rw [← List.append_nil (t ++ _)]
        refine hsent.step (hclose _) ?_
        simp [dashboard, dashboardStep, hended]

/-- A step that is not the sender's. -/
theorem dashboardStep_receiver {d d' : DashboardState} {a : DashboardAction}
    {o : List DashboardObs} (h : dashboardStep d a = some (d', o)) (hsender : a.ofSender = false) :
    d.ended = false ∧ d'.closed = d.closed ∧ sentUpdates o = [] := by
  unfold dashboardStep at h
  cases hended : d.ended with
  | true => simp [hended] at h
  | false =>
  refine ⟨rfl, ?_⟩
  rw [hended, if_neg Bool.false_ne_true] at h
  cases a with
  | send _ | close => cases hsender
  | event event ts written =>
    dsimp only at h
    split at h <;> obtain ⟨rfl, rfl⟩ := Prod.mk.inj (Option.some.inj h) <;> exact ⟨rfl, rfl⟩
  | tick =>
    dsimp only at h
    split_ifs at h <;> obtain ⟨rfl, rfl⟩ := Prod.mk.inj (Option.some.inj h)
    · exact ⟨rfl, rfl⟩
    · exact ⟨rfl, sentUpdates_shown _⟩
  | recv =>
    dsimp only at h
    split at h <;> split_ifs at h <;> obtain ⟨rfl, rfl⟩ := Prod.mk.inj (Option.some.inj h) <;>
      exact ⟨rfl, rfl⟩
  | drawFails =>
    obtain ⟨rfl, rfl⟩ := Prod.mk.inj (Option.some.inj h)
    exact ⟨rfl, rfl⟩

/-- `q` is pressed. -/
def DashboardState.quits (d : DashboardState) : DashboardAction → Bool
  | .event event ts written => (d.dashboard.onEvent event ts written).isNone
  | _ => false

/-- Otherwise the dashboard ends when a draw fails, or when all is received and the sender is
gone. -/
theorem dashboardStep_ends {d d' : DashboardState} {a : DashboardAction} {o : List DashboardObs}
    (h : dashboardStep d a = some (d', o)) (hsender : a.ofSender = false)
    (hquits : d.quits a = false) (hended : d'.ended = true) :
    a = .drawFails ∨ d'.updates = [] ∧ d.closed = true := by
  have hopen := (dashboardStep_receiver h hsender).1
  unfold dashboardStep at h
  rw [hopen, if_neg Bool.false_ne_true] at h
  cases a with
  | send _ | close => cases hsender
  | event event ts written =>
    dsimp only at h
    split at h
    · rename_i hquit
      rw [DashboardState.quits, hquit] at hquits
      cases hquits
    · obtain ⟨rfl, rfl⟩ := Prod.mk.inj (Option.some.inj h)
      cases hended
  | tick =>
    dsimp only at h
    split_ifs at h <;> obtain ⟨rfl, rfl⟩ := Prod.mk.inj (Option.some.inj h) <;>
      simp [hopen] at hended
  | recv =>
    dsimp only at h
    split at h
    · rename_i hupdates
      split_ifs at h with hclosed
      obtain ⟨rfl, rfl⟩ := Prod.mk.inj (Option.some.inj h)
      exact .inr ⟨hupdates, hclosed⟩
    · split_ifs at h <;> obtain ⟨rfl, rfl⟩ := Prod.mk.inj (Option.some.inj h) <;>
        cases hended
  | drawFails => exact .inl rfl

/-! ## Runs of the command -/

section Tui

variable {ι σ α ω : Type} [DecidableEq ι] {S : StreamTasks ι σ α ω} {cfg : RunConfig} {started : ℕ}
  {t : List (TuiObs ι ω)} {s : TuiState σ ι}

/-- A step of the run makes the intervals that it sends. -/
theorem run_intervals {t o : List (Pipe.Obs (ι × ω) EngineObs)}
    {s s' : Pipe.State σ PacketEvent (EngineState ι)} {a : Pipe.Action α (EngineAction ι)}
    (h : (runSystem S (cfg.loopConfig started)).machine.Reach t s)
    (hstep : (runSystem S (cfg.loopConfig started)).machine.step s a = some (s', o)) :
    s'.consumer.loop.intervals = s.consumer.loop.intervals ++ o.filterMap progressMessage := by
  have hbefore := (engineTracks_reach (Pipe.consumer_reach h)).progress
  have hafter := (engineTracks_reach (Pipe.consumer_reach (h.step hstep))).progress
  have hparts : runProgress (t ++ o) = runProgress t ++ runProgress o := by
    simp [← filterMap_progressMessage]
  rw [filterMap_progressMessage, ← hafter, ← hbefore]
  exact hparts

/-- A run of the command is a run of the benchmark. -/
theorem run_reach (h : (tui S cfg started).Reach t s) :
    (runSystem S (cfg.loopConfig started)).machine.Reach (runPart t) s.run := by
  refine Machine.Reach.invariant (M := tui S cfg started) (I := fun t s =>
    (runSystem S (cfg.loopConfig started)).machine.Reach (runPart t) s.run) .start
    (fun {t s _ s' o} _ ih hstep => ?_) h
  cases tuiStep_effect hstep with
  | run a run o hrun => simpa using ih.step hrun
  | dashboard a d o hmain hsender hd => simpa using ih
  | restored hmain | restoreFailed hmain | joined report hmain hresult | failed e hmain hresult =>
    simpa using ih

/-- What `main` knows of the dashboard and of the benchmark. -/
def TuiPc.Knows (ended : Bool) (result : Option (Except RunError BenchmarkReport)) :
    TuiPc → Prop
  | .dashboard => ended = false
  | .restore | .runner | .returned (.error .dashboard) => ended = true
  | .returned (.ok report) => ended = true ∧ result = some (.ok report)
  | .returned (.error (.benchmark e)) => ended = true ∧ result = some (.error e)

/-- The dashboard gets all intervals of the run until it ends. -/
structure TuiTracks (cfg : RunConfig) (t : List (TuiObs ι ω)) (s : TuiState σ ι) : Prop where
  sent : sentUpdates (dashboardPart t) <+: s.run.consumer.loop.intervals
  opened : s.dashboard.ended = false →
    sentUpdates (dashboardPart t) = s.run.consumer.loop.intervals
  closed : s.dashboard.closed = true → ∃ r, s.run.consumer.result cfg = some r
  main : s.main.Knows s.dashboard.ended (s.run.consumer.result cfg)

theorem TuiPc.Knows.mono {ended : Bool} {result result' : Option (Except RunError BenchmarkReport)}
    {main : TuiPc} (h : main.Knows ended result)
    (hkept : ∀ r, result = some r → result' = some r) : main.Knows ended result' := by
  cases main with
  | dashboard | restore | runner => exact h
  | returned r =>
    cases r with
    | ok report => exact ⟨h.1, hkept _ h.2⟩
    | error e =>
      cases e with
      | dashboard => exact h
      | benchmark e => exact ⟨h.1, hkept _ h.2⟩

theorem DashboardState.offer_ended (d : DashboardState) (intervals : List IntervalStats)
    (closed : Bool) : (d.offer intervals closed).1.ended = d.ended := by
  unfold offer
  split_ifs <;> rfl

theorem mainAfter_knows (a : DashboardAction) (d : DashboardState)
    (result : Option (Except RunError BenchmarkReport)) :
    (mainAfter a d).Knows d.ended result := by
  unfold mainAfter
  split_ifs with hended
  · split <;> exact hended
  · exact (Bool.not_eq_true _).mp hended

theorem tuiTracks_reach (h : (tui S cfg started).Reach t s) : TuiTracks cfg t s := by
  refine Machine.Reach.invariant (M := tui S cfg started) (I := TuiTracks cfg)
    ⟨List.prefix_rfl, fun _ => rfl, nofun, rfl⟩ (fun {t s _ s' o} hreach ih hstep => ?_) h
  cases tuiStep_effect hstep with
  | run a run o hrun =>
    have hintervals := run_intervals (run_reach hreach) hrun
    have hmain := ih.main.mono fun r hr => (result_step hrun hr).1
    unfold DashboardState.offer
    cases hended : s.dashboard.ended with
    | true =>
      refine ⟨?_, ?_, ?_, ?_⟩
      · simpa [hintervals] using ih.sent.trans (List.prefix_append _ _)
      · simp [hended]
      · intro hclosed
        obtain ⟨r, hr⟩ := ih.closed (by simpa using hclosed)
        exact ⟨r, (result_step hrun hr).1⟩
      · simpa using hmain
    | false =>
      rw [if_neg Bool.false_ne_true]
      have hsent : sentUpdates (dashboardPart (t ++ (o.map .run ++
          ((o.filterMap progressMessage).map .sent).map .dashboard))) =
            run.consumer.loop.intervals := by
        rw [dashboardPart_append, dashboardPart_append, dashboardPart_run, List.nil_append,
          dashboardPart_dashboard, sentUpdates_append, sentUpdates_sent, ih.opened hended,
          hintervals]
      refine ⟨by rw [hsent], fun _ => hsent, Option.isSome_iff_exists.mp, ?_⟩
      simpa [hended] using hmain
  | dashboard a d o hmain hsender hd =>
    obtain ⟨hopen, hclosed, ho⟩ := dashboardStep_receiver hd hsender
    refine ⟨?_, fun _ => ?_, fun h => ih.closed (hclosed ▸ h), mainAfter_knows a d _⟩
    · simpa [ho] using ih.sent
    · simpa [ho] using ih.opened hopen
  | restored hmain | restoreFailed hmain =>
    have hknows := ih.main
    rw [hmain] at hknows
    exact ⟨by simpa using ih.sent, by simpa using ih.opened, ih.closed, hknows⟩
  | joined report hmain hresult | failed e hmain hresult =>
    have hknows := ih.main
    rw [hmain] at hknows
    exact ⟨by simpa using ih.sent, by simpa using ih.opened, ih.closed, hknows, hresult⟩

/-- A run of the command is a run of the dashboard. -/
theorem dashboard_reach {P : TuiState σ ι → TuiAction α ι → Prop}
    {Q : DashboardState → DashboardAction → Prop} (hsend : ∀ d interval, Q d (.send interval))
    (hclose : ∀ d, Q d .close) (hP : ∀ {s a}, P s (.dashboard a) → Q s.dashboard a)
    (h : (tui S cfg started).ReachWhile P t s) :
    dashboard.ReachWhile Q (dashboardPart t) s.dashboard := by
  refine (Machine.ReachWhile.invariant (M := tui S cfg started) (I := fun t s =>
    (tui S cfg started).Reach t s ∧ dashboard.ReachWhile Q (dashboardPart t) s.dashboard)
    ⟨.start, .start⟩ (fun {t s _ s' o} ⟨hreach, ih⟩ hp hstep => ⟨hreach.step hstep, ?_⟩) h).2
  cases tuiStep_effect hstep with
  | run a run o hrun =>
    have hoffer : dashboard.ReachWhile Q _ (s.dashboard.offer (o.filterMap progressMessage)
        (run.consumer.result cfg).isSome).1 :=
      dashboard_offer hsend hclose ih fun hclosed => by
        obtain ⟨r, hr⟩ := (tuiTracks_reach hreach).closed hclosed
        obtain ⟨hresult, hquiet⟩ := result_step hrun hr
        exact ⟨hquiet, by rw [hresult]; rfl⟩
    simpa using hoffer
  | dashboard a d o hmain hsender hd => simpa using ih.step (hP hp) hd
  | restored hmain | restoreFailed hmain | joined report hmain hresult | failed e hmain hresult =>
    simpa using ih

/-- In every run of the command with `--tui`, whatever the user does and however the streams, the
engine and the dashboard are interleaved : what the dashboard got are the first intervals of the
run, each once and in order, and as long as it has not ended it is all of them. It has taken the
first ones of those, and the others are in its channel. The command returns a report only if all
streams returned `Ok`, and then that of what the engine took, and an error of the benchmark only if
`run_benchmark` returned it. -/
theorem dashboardRun_reports (h : (tui S cfg started).Reach t s) :
    takenUpdates (dashboardPart t) ++ s.dashboard.updates <+: s.run.consumer.loop.intervals ∧
    (s.dashboard.ended = false →
      takenUpdates (dashboardPart t) ++ s.dashboard.updates = s.run.consumer.loop.intervals) ∧
    (∀ report, s.main = .returned (.ok report) →
      (∀ i, S.ended s.run.producer i = some .returned) ∧
      report = benchmarkReport cfg started (runInputs (runPart t)) ∧
      takenUpdates (dashboardPart t) ++ s.dashboard.updates <+: report.intervals) ∧
    ∀ e, s.main = .returned (.error (.benchmark e)) →
      s.run.consumer.result cfg = some (.error e) := by
  have htracks := tuiTracks_reach h
  have hdashboard : dashboard.ReachWhile (fun _ _ => True) (dashboardPart t) s.dashboard :=
    dashboard_reach (P := fun _ _ => True) (fun _ _ => trivial) (fun _ => trivial)
      (fun _ => trivial) (h.reachWhile fun _ _ => trivial)
  rw [← (follows_reach hdashboard.reach).sent]
  refine ⟨htracks.sent, htracks.opened, fun report hmain => ?_, fun e hmain => ?_⟩
  · have hknows := htracks.main
    rw [hmain] at hknows
    obtain ⟨hreport, hintervals, hreturned⟩ := returned_report (run_reach h) hknows.2
    exact ⟨hreturned, hreport, hintervals ▸ htracks.sent⟩
  · have hknows := htracks.main
    rw [hmain] at hknows
    exact hknows.2

/-! ## Without a key press -/

/-- The user does not quit, and `recv` takes no update while the dashboard is paused. -/
def TuiState.attended (s : TuiState σ ι) : TuiAction α ι → Bool
  | .dashboard a => leavesUpdates s.dashboard a && !s.dashboard.quits a
  | _ => true

/-- The dashboard ends only when it has received all intervals of the run, or a draw fails. -/
theorem tuiDrained_reach
    (h : (tui S cfg started).ReachWhile (fun s a => s.attended a = true) t s)
    (hended : s.dashboard.ended = true) (hmain : s.main ≠ .returned (.error .dashboard)) :
    s.dashboard.updates = [] ∧
      sentUpdates (dashboardPart t) = s.run.consumer.loop.intervals ∧
      ∃ r, s.run.consumer.result cfg = some r := by
  refine (Machine.ReachWhile.invariant (M := tui S cfg started) (I := fun t s =>
    (tui S cfg started).Reach t s ∧ (s.dashboard.ended = true →
      s.main ≠ .returned (.error .dashboard) → s.dashboard.updates = [] ∧
        sentUpdates (dashboardPart t) = s.run.consumer.loop.intervals ∧
        ∃ r, s.run.consumer.result cfg = some r)) ⟨.start, nofun⟩
    (fun {t s _ s' o} ⟨hreach, ih⟩ hp hstep => ⟨hreach.step hstep, ?_⟩) h).2 hended hmain
  intro hended hmain
  cases tuiStep_effect hstep with
  | run a run o hrun =>
    rw [DashboardState.offer_ended] at hended
    obtain ⟨hupdates, hsent, r, hr⟩ := ih hended hmain
    obtain ⟨hresult, hquiet⟩ := result_step hrun hr
    unfold DashboardState.offer
    rw [if_pos hended]
    refine ⟨hupdates, ?_, r, hresult⟩
    rw [run_intervals (run_reach hreach) hrun, hquiet, List.append_nil, ← hsent]
    simp
  | dashboard a d o hbefore hsender hd =>
    have htracks := tuiTracks_reach hreach
    obtain ⟨hopen, hclosed, ho⟩ := dashboardStep_receiver hd hsender
    have hquits : s.dashboard.quits a = false := by simp_all [TuiState.attended]
    rcases dashboardStep_ends hd hsender hquits hended with rfl | ⟨hupdates, hgone⟩
    · exact absurd (if_pos hended) hmain
    · refine ⟨hupdates, ?_, htracks.closed hgone⟩
      simpa [ho] using htracks.opened hopen
  | restored hbefore =>
    simpa using ih hended (by simp [hbefore])
  | restoreFailed hbefore => exact absurd rfl hmain
  | joined report hbefore hresult | failed e hbefore hresult =>
    simpa using ih hended (by simp [hbefore])

/-- In every run of the command with `--tui` in which the user does not quit and `recv` takes no
update while the dashboard is paused : the dashboard ends only after `run_benchmark` has returned
and it has received all intervals of the run, unless the command fails with an error of the
dashboard. When the command returns a report, the dashboard shows its last 120 intervals, and the
last one as the latest. -/
theorem dashboardRun_showsAll
    (h : (tui S cfg started).ReachWhile (fun s a => s.attended a = true) t s) :
    (s.dashboard.ended = true → s.main = .returned (.error .dashboard) ∨
      takenUpdates (dashboardPart t) = s.run.consumer.loop.intervals ∧
        ∃ result, s.run.consumer.result cfg = some result) ∧
    ∀ report, s.main = .returned (.ok report) →
      s.dashboard.dashboard.intervals.entries =
          report.intervals.drop (report.intervals.length - 120) ∧
        s.dashboard.dashboard.latest = report.intervals.getLastD default := by
  have hdashboard : dashboard.ReachWhile (fun s a => leavesUpdates s a = true) (dashboardPart t)
      s.dashboard :=
    dashboard_reach (P := fun s a => s.attended a = true) (fun _ _ => rfl) (fun _ => rfl)
      (fun hp => (Bool.and_eq_true_iff.mp hp).1) h
  obtain ⟨hsent, hintervals, hlatest⟩ := follows_reach hdashboard.reach
  have hall : s.dashboard.ended = true → s.main ≠ .returned (.error .dashboard) →
      takenUpdates (dashboardPart t) = s.run.consumer.loop.intervals ∧
        ∃ result, s.run.consumer.result cfg = some result := by
    intro hended hmain
    obtain ⟨hupdates, hall, hresult⟩ := tuiDrained_reach h hended hmain
    rw [hupdates, List.append_nil] at hsent
    exact ⟨hsent.symm.trans hall, hresult⟩
  refine ⟨fun hended => ?_, fun report hmain => ?_⟩
  · by_cases hmain : s.main = .returned (.error .dashboard)
    · exact .inl hmain
    · exact .inr (hall hended hmain)
  · have hknows := (tuiTracks_reach h.reach).main
    rw [hmain] at hknows
    obtain ⟨htaken, -⟩ := hall hknows.1 (by simp [hmain])
    rw [taken_eq_shown hdashboard,
      ← (returned_report (run_reach h.reach) hknows.2).2.1] at htaken
    rw [htaken] at hintervals hlatest
    exact ⟨congrArg Recent.entries hintervals, hlatest⟩

end Tui

/-- An interval is sent while the dashboard is paused and shown after that, then all end. -/
def pausedRun : List (TuiAction (Fin 2) (Fin 2)) :=
  [[.dashboard pressP, .run (.own (.tick 350000000)), .dashboard .tick, .dashboard pressP,
      .dashboard .recv, .run .recv],
    quietTasks.handles.map fun i => .run (.own (.join i .returned)),
    [.run (.own .finish), .dashboard .recv, .restore true, .join]].flatten

theorem pausedRun_exec :
    ((tui quietTasks lostWarmup 0).execWhile (fun s a => s.attended a = true)
      (tui quietTasks lostWarmup 0).init pausedRun).map
        (fun r => (r.1.main matches .returned (.ok _), (dashboardPart r.2).length)) =
          some (true, 2) := by
  decide +kernel

theorem dashboardRun_showsAll_paused :
    ∃ t s report, (tui quietTasks lostWarmup 0).ReachWhile (fun s a => s.attended a = true) t s ∧
      s.main = .returned (.ok report) ∧
      s.dashboard.dashboard.latest = report.intervals.getLastD default := by
  obtain ⟨⟨s, t⟩, hexec, hshow⟩ := Option.map_eq_some_iff.mp pausedRun_exec
  have hreach := Machine.ReachWhile.start.execWhile hexec
  have hreturned := (Prod.mk.inj hshow).1
  dsimp only at hreturned
  split at hreturned
  · rename_i report hmain
    exact ⟨_, s, report, hreach, hmain, ((dashboardRun_showsAll hreach).2 report hmain).2⟩
  · cases hreturned

theorem dashboardRun_reports_paused :
    ∃ t s, (tui quietTasks lostWarmup 0).Reach t s ∧
      takenUpdates (dashboardPart t) ++ s.dashboard.updates <+: s.run.consumer.loop.intervals := by
  obtain ⟨⟨s, t⟩, hexec, -⟩ := Option.map_eq_some_iff.mp pausedRun_exec
  have hreach := (Machine.ReachWhile.start.execWhile hexec).reach
  exact ⟨_, s, hreach, (dashboardRun_reports hreach).1⟩

end Ipfusch
