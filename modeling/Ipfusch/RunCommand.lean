import Ipfusch.RunSystem

/-!
# The run command

`ipfusch run` starts `run_benchmark` with a channel for its intervals, shows the intervals that
arrive, and at the end emits the report. What shows the intervals is a `RunView`, the consumer of a
second channel whose producer is the whole run (`runCommand`).

With `--jsonl` a task prints each interval as a line, and `main` waits for the benchmark, then for
that task, and then emits the report. `jsonLines_reports` : what is printed are the lines of the
first intervals of the run, in order, and if the command succeeds then those of all intervals of
the report, followed by the report. `jsonLines_ends` : once the benchmark has returned, only a
bounded number of steps is left until the command ends.
-/

namespace Ipfusch

deriving instance DecidableEq for IntervalStats, StreamStats, AggregateStats, RunConfigSnapshot,
  RunReport, BenchmarkReport

/-! ## The benchmark as a producer -/

section Benchmark

variable {ι σ α ω : Type} [DecidableEq ι] {S : StreamTasks ι σ α ω}

/-- What `run_benchmark` has returned. -/
def EngineState.result (cfg : RunConfig) (s : EngineState ι) :
    Option (Except RunError BenchmarkReport) :=
  match s.pc with
  | .returned (.ok _) => some (.ok (s.loop.report cfg))
  | .returned (.error e) => some (.error e)
  | _ => none

omit [DecidableEq ι] in
theorem EngineState.result_eq_some {cfg : RunConfig} {s : EngineState ι}
    {r : Except RunError BenchmarkReport} (h : s.result cfg = some r) :
    ∃ result, s.pc = .returned result := by
  unfold result at h
  split at h
  · exact ⟨_, ‹_›⟩
  · exact ⟨_, ‹_›⟩
  · cases h

/-- The interval that is sent to `progress_tx`. -/
def progressMessage (o : Pipe.Obs (ι × ω) EngineObs) : Option IntervalStats :=
  o.consumer?.bind EngineObs.progress?

omit [DecidableEq ι] in
theorem filterMap_progressMessage (t : List (Pipe.Obs (ι × ω) EngineObs)) :
    t.filterMap progressMessage = runProgress t := by
  rw [runProgress, progressOf, Pipe.consumed, List.filterMap_filterMap]
  rfl

/-- What `run_benchmark` has returned stays, and no interval is sent after it. -/
theorem result_step {cfg : RunConfig} {started : ℕ}
    {s s' : Pipe.State σ PacketEvent (EngineState ι)} {a : Pipe.Action α (EngineAction ι)}
    {o : List (Pipe.Obs (ι × ω) EngineObs)} {r : Except RunError BenchmarkReport}
    (hstep : (runSystem S (cfg.loopConfig started)).machine.step s a = some (s', o))
    (h : s.consumer.result cfg = some r) :
    s'.consumer.result cfg = some r ∧ o.filterMap progressMessage = [] := by
  obtain ⟨result, hpc⟩ := EngineState.result_eq_some h
  cases Pipe.step_effect hstep with
  | produce a p o hp =>
    refine ⟨h, ?_⟩
    rw [List.filterMap_map, List.filterMap_eq_nil_iff]
    exact fun _ _ => rfl
  | recv m channel c o hchannel hclosed hc => cases engineStep_effect hc <;> simp_all
  | own b c o hallows hc => cases engineStep_effect hc <;> simp_all

/-- The report that `run_benchmark` has returned. -/
theorem returned_report {cfg : RunConfig} {started : ℕ} {t : List (Pipe.Obs (ι × ω) EngineObs)}
    {s : Pipe.State σ PacketEvent (EngineState ι)} {report : BenchmarkReport}
    (h : (runSystem S (cfg.loopConfig started)).machine.Reach t s)
    (hresult : s.consumer.result cfg = some (.ok report)) :
    report = benchmarkReport cfg started (runInputs t) ∧
      report.intervals = s.consumer.loop.intervals ∧
      ∀ i, S.ended s.producer i = some .returned := by
  unfold EngineState.result at hresult
  split at hresult
  · rename_i hpc
    obtain rfl := Except.ok.inj (Option.some.inj hresult)
    obtain ⟨-, ends, hends, hok⟩ := returned_cases h hpc
    exact ⟨report_eq h, rfl, (joinHandles_ends hends).mp hok.symm⟩
  · cases hresult
  · cases hresult

end Benchmark

/-! ## The command -/

/-- What the command does besides receiving intervals. -/
inductive ViewAction (β : Type)
  /-- It sees that `run_benchmark` has returned. -/
  | result (r : Except RunError BenchmarkReport)
  | own (b : β)

/-- What shows the intervals of a run. -/
structure RunView (τ β υ : Type) where
  machine : Machine τ (Pipe.Input IntervalStats (ViewAction β)) υ
  /-- The interval that was received. -/
  received : υ → Option IntervalStats
  received_recv : ∀ {s m s' o}, machine.step s (.recv m) = some (s', o) →
    o.filterMap received = m.toList
  received_own : ∀ {s b s' o}, machine.step s (.own b) = some (s', o) → o.filterMap received = []

section Command

variable {ι σ α ω τ β υ : Type} [DecidableEq ι] (S : StreamTasks ι σ α ω) (cfg : RunConfig)
  (started : ℕ) (view : RunView τ β υ)

/-- The benchmark, the channel of its intervals, and what shows them. -/
def runCommand : Pipe (Pipe.State σ PacketEvent (EngineState ι)) (Pipe.Action α (EngineAction ι))
    (Pipe.Obs (ι × ω) EngineObs) IntervalStats τ (ViewAction β) υ where
  producer := (runSystem S (cfg.loopConfig started)).machine
  message := progressMessage
  closed s := (s.consumer.result cfg).isSome
  consumer := view.machine
  received := view.received
  allows s a :=
    match a with
    | .result r => s.consumer.result cfg = some r
    | .own _ => true
  received_recv := view.received_recv
  received_own := view.received_own

variable {S cfg started view} {t : List (Pipe.Obs (Pipe.Obs (ι × ω) EngineObs) υ)}
  {s : Pipe.State (Pipe.State σ PacketEvent (EngineState ι)) IntervalStats τ}

/-- The intervals of the run are those that the command has received and those in the channel. -/
theorem command_intervals (h : (runCommand S cfg started view).machine.Reach t s) :
    s.producer.consumer.loop.intervals =
      (Pipe.consumed t).filterMap view.received ++ s.channel := by
  have hrun := Pipe.producer_reach h
  have hsent := Pipe.sent_eq h
  rw [← (engineTracks_reach (Pipe.consumer_reach hrun)).progress]
  exact (filterMap_progressMessage _).symm.trans hsent

end Command

/-! ## JSON lines -/

/-- Why the command fails after `run_benchmark`, or in it. -/
inductive CommandError
  | benchmark (e : RunError)
  /-- The printer panicked. -/
  | join
  /-- The report was not written to `args.output`. -/
  | output
  deriving DecidableEq, Repr

/-- Where the printer is. -/
inductive PrinterPc
  | receiving
  /-- `println!` -/
  | printing (json : String)
  | returned
  /-- `println!` could not write this. -/
  | panicked (json : String)

/-- Where `main` is. -/
inductive MainPc
  /-- `run_benchmark(cfg, Some(tx)).await?` -/
  | benchmark
  /-- `printer.await` -/
  | printer (report : BenchmarkReport)
  /-- `write_json` and `emit_report` -/
  | output (report : BenchmarkReport)
  | done (report : BenchmarkReport)
  | failed (e : CommandError)

/-- The printer and `main`. -/
structure JsonLinesState where
  printer : PrinterPc
  main : MainPc

/-- What can come next, but for intervals and the end of the benchmark. -/
inductive JsonLinesAction
  /-- `println!` returns or panics. -/
  | print (written : Bool)
  | join
  /-- `args.output` is written, if there is one, or cannot be. Then the report is emitted. -/
  | output (written : Bool)

/-- What is written to the standard output. -/
inductive OutputItem
  | line (json : String)
  /-- `emit_report` -/
  | report (report : BenchmarkReport)

/-- What the command shows. -/
inductive JsonLinesObs
  | received (interval : IntervalStats)
  | stdout (item : OutputItem)

/-- The interval that was received. -/
def JsonLinesObs.received? : JsonLinesObs → Option IntervalStats
  | .received interval => some interval
  | .stdout _ => none

/-- What was written. -/
def JsonLinesObs.stdout? : JsonLinesObs → Option OutputItem
  | .received _ => none
  | .stdout item => some item

section JsonLines

variable (json : IntervalStats → Option String)

/-- One step of the printer or of `main`, where `json` is `serde_json::to_string`. -/
def jsonLinesStep (s : JsonLinesState) :
    Pipe.Input IntervalStats (ViewAction JsonLinesAction) →
      Option (JsonLinesState × List JsonLinesObs)
  | .recv (some interval) =>
    match s.printer with
    | .receiving =>
      match json interval with
      | some line => some ({ s with printer := .printing line }, [.received interval])
      | none => some (s, [.received interval])
    | _ => none
  | .recv none =>
    match s.printer with
    | .receiving => some ({ s with printer := .returned }, [])
    | _ => none
  | .own (.own (.print written)) =>
    match s.printer with
    | .printing line =>
      if written then some ({ s with printer := .receiving }, [.stdout (.line line)])
      else some ({ s with printer := .panicked line }, [])
    | _ => none
  | .own (.result r) =>
    match s.main with
    | .benchmark =>
      match r with
      | .ok report => some ({ s with main := .printer report }, [])
      | .error e => some ({ s with main := .failed (.benchmark e) }, [])
    | _ => none
  | .own (.own .join) =>
    match s.main, s.printer with
    | .printer report, .returned => some ({ s with main := .output report }, [])
    | .printer _, .panicked _ => some ({ s with main := .failed .join }, [])
    | _, _ => none
  | .own (.own (.output written)) =>
    match s.main with
    | .output report =>
      if written then some ({ s with main := .done report }, [.stdout (.report report)])
      else some ({ s with main := .failed .output }, [])
    | _ => none

/-- What a step does. -/
inductive JsonLinesEffect (s : JsonLinesState) :
    Pipe.Input IntervalStats (ViewAction JsonLinesAction) → JsonLinesState →
      List JsonLinesObs → Prop
  | serialized (interval : IntervalStats) (line : String) (hprinter : s.printer = .receiving)
      (hjson : json interval = some line) :
      JsonLinesEffect s (.recv (some interval)) { s with printer := .printing line }
        [.received interval]
  | skipped (interval : IntervalStats) (hprinter : s.printer = .receiving)
      (hjson : json interval = none) :
      JsonLinesEffect s (.recv (some interval)) s [.received interval]
  | returned (hprinter : s.printer = .receiving) :
      JsonLinesEffect s (.recv none) { s with printer := .returned } []
  | printed (line : String) (hprinter : s.printer = .printing line) :
      JsonLinesEffect s (.own (.own (.print true))) { s with printer := .receiving }
        [.stdout (.line line)]
  | panicked (line : String) (hprinter : s.printer = .printing line) :
      JsonLinesEffect s (.own (.own (.print false))) { s with printer := .panicked line } []
  | benchmark (report : BenchmarkReport) (hmain : s.main = .benchmark) :
      JsonLinesEffect s (.own (.result (.ok report))) { s with main := .printer report } []
  | benchmarkFailed (e : RunError) (hmain : s.main = .benchmark) :
      JsonLinesEffect s (.own (.result (.error e))) { s with main := .failed (.benchmark e) } []
  | joined (report : BenchmarkReport) (hmain : s.main = .printer report)
      (hprinter : s.printer = .returned) :
      JsonLinesEffect s (.own (.own .join)) { s with main := .output report } []
  | joinFailed (report : BenchmarkReport) (line : String) (hmain : s.main = .printer report)
      (hprinter : s.printer = .panicked line) :
      JsonLinesEffect s (.own (.own .join)) { s with main := .failed .join } []
  | emitted (report : BenchmarkReport) (hmain : s.main = .output report) :
      JsonLinesEffect s (.own (.own (.output true))) { s with main := .done report }
        [.stdout (.report report)]
  | outputFailed (report : BenchmarkReport) (hmain : s.main = .output report) :
      JsonLinesEffect s (.own (.own (.output false))) { s with main := .failed .output } []

variable {json}

theorem jsonLinesStep_effect {s s' : JsonLinesState}
    {i : Pipe.Input IntervalStats (ViewAction JsonLinesAction)} {o : List JsonLinesObs}
    (h : jsonLinesStep json s i = some (s', o)) : JsonLinesEffect json s i s' o := by
  unfold jsonLinesStep at h
  split at h
  · split at h
    · rename_i hprinter
      split at h <;> obtain ⟨rfl, rfl⟩ := Prod.mk.inj (Option.some.inj h)
      · exact .serialized _ _ hprinter ‹_›
      · exact .skipped _ hprinter ‹_›
    · cases h
  · split at h
    · rename_i hprinter
      obtain ⟨rfl, rfl⟩ := Prod.mk.inj (Option.some.inj h)
      exact .returned hprinter
    · cases h
  · split at h
    · rename_i hprinter
      split_ifs at h with hwritten <;> obtain ⟨rfl, rfl⟩ := Prod.mk.inj (Option.some.inj h)
      · rw [hwritten]
        exact .printed _ hprinter
      · rw [Bool.not_eq_true] at hwritten
        rw [hwritten]
        exact .panicked _ hprinter
    · cases h
  · split at h
    · rename_i hmain
      split at h <;> obtain ⟨rfl, rfl⟩ := Prod.mk.inj (Option.some.inj h)
      · exact .benchmark _ hmain
      · exact .benchmarkFailed _ hmain
    · cases h
  · split at h
    · rename_i hmain hprinter
      obtain ⟨rfl, rfl⟩ := Prod.mk.inj (Option.some.inj h)
      exact .joined _ hmain hprinter
    · rename_i hmain hprinter
      obtain ⟨rfl, rfl⟩ := Prod.mk.inj (Option.some.inj h)
      exact .joinFailed _ _ hmain hprinter
    · cases h
  · split at h
    · rename_i hmain
      split_ifs at h with hwritten <;> obtain ⟨rfl, rfl⟩ := Prod.mk.inj (Option.some.inj h)
      · rw [hwritten]
        exact .emitted _ hmain
      · rw [Bool.not_eq_true] at hwritten
        rw [hwritten]
        exact .outputFailed _ hmain
    · cases h

variable (json)

/-- The printer and `main`, with `--jsonl`. -/
def jsonLines : RunView JsonLinesState JsonLinesAction JsonLinesObs where
  machine := ⟨⟨.receiving, .benchmark⟩, jsonLinesStep json⟩
  received := JsonLinesObs.received?
  received_recv h := by cases jsonLinesStep_effect h <;> rfl
  received_own h := by cases jsonLinesStep_effect h <;> rfl

end JsonLines

/-! ## What is printed -/

/-- What the printer has received and not printed. -/
def PrinterPc.unprinted : PrinterPc → List String
  | .printing json | .panicked json => [json]
  | .receiving | .returned => []

/-- The report, once it is emitted. -/
def MainPc.emitted : MainPc → List OutputItem
  | .done report => [.report report]
  | _ => []

/-- How `main` found the printer. -/
def MainPc.Joined (printer : PrinterPc) : MainPc → Prop
  | .output _ | .done _ | .failed .output => printer = .returned
  | .failed .join => ∃ json, printer = .panicked json
  | _ => True

/-- What was written. -/
def stdoutOf (t : List JsonLinesObs) : List OutputItem :=
  t.filterMap JsonLinesObs.stdout?

/-- What was received. -/
def receivedOf (t : List JsonLinesObs) : List IntervalStats :=
  t.filterMap JsonLinesObs.received?

@[simp] theorem stdoutOf_append (t o : List JsonLinesObs) :
    stdoutOf (t ++ o) = stdoutOf t ++ stdoutOf o :=
  List.filterMap_append

@[simp] theorem receivedOf_append (t o : List JsonLinesObs) :
    receivedOf (t ++ o) = receivedOf t ++ receivedOf o :=
  List.filterMap_append

/-- What is printed are the lines of what was received, and then the report. -/
structure PrintsLines (json : IntervalStats → Option String) (t : List JsonLinesObs)
    (s : JsonLinesState) (lines : List String) : Prop where
  stdout : stdoutOf t = lines.map .line ++ s.main.emitted
  received : (receivedOf t).filterMap json = lines ++ s.printer.unprinted
  joined : s.main.Joined s.printer

section Prints

variable {json : IntervalStats → Option String} {t o : List JsonLinesObs} {s s' : JsonLinesState}
  {lines : List String}

/-- A step that prints nothing. -/
theorem PrintsLines.silent (h : PrintsLines json t s lines) (ho : stdoutOf o = [])
    (hemitted : s'.main.emitted = s.main.emitted)
    (hreceived : (receivedOf (t ++ o)).filterMap json = lines ++ s'.printer.unprinted)
    (hjoined : s'.main.Joined s'.printer) : PrintsLines json (t ++ o) s' lines :=
  ⟨by rw [stdoutOf_append, ho, List.append_nil, hemitted, h.stdout], hreceived, hjoined⟩

/-- A step of `main` that prints nothing. -/
theorem PrintsLines.main (h : PrintsLines json t s lines) {main : MainPc}
    (hemitted : main.emitted = s.main.emitted) (hjoined : main.Joined s.printer) :
    PrintsLines json (t ++ []) { s with main := main } lines :=
  h.silent rfl hemitted (by rw [List.append_nil]; exact h.received) hjoined

/-- As long as the printer has not ended, `main` has not joined it. -/
theorem MainPc.Joined.emitted {main : MainPc} {printer : PrinterPc} (h : main.Joined printer)
    (hprinter : printer ≠ .returned) : main.emitted = [] := by
  cases main with
  | done report => exact absurd h hprinter
  | benchmark | printer _ | output _ | failed _ => rfl

/-- The printer goes on. -/
theorem MainPc.Joined.goOn {main : MainPc} {printer printer' : PrinterPc}
    (h : main.Joined printer) (hreturned : printer ≠ .returned)
    (hpanicked : ∀ line, printer ≠ .panicked line) : main.Joined printer' := by
  cases main with
  | output _ | done _ => exact absurd h hreturned
  | failed e =>
    cases e with
    | benchmark _ => trivial
    | join => exact absurd h.choose_spec (hpanicked _)
    | output => exact absurd h hreturned
  | benchmark | printer _ => trivial

theorem printsLines_reach (h : (jsonLines json).machine.Reach t s) :
    ∃ lines, PrintsLines json t s lines := by
  refine Machine.Reach.invariant (M := (jsonLines json).machine)
    (I := fun t s => ∃ lines, PrintsLines json t s lines) ⟨[], rfl, rfl, trivial⟩
    (fun {t s i s' o} _ ⟨lines, ih⟩ hstep => ?_) h
  cases jsonLinesStep_effect hstep with
  | serialized interval line hprinter hjson =>
    refine ⟨lines, ih.silent rfl rfl ?_ (ih.joined.goOn (by simp [hprinter]) (by simp [hprinter]))⟩
    rw [receivedOf_append, List.filterMap_append, ih.received, hprinter]
    simp [receivedOf, JsonLinesObs.received?, hjson, PrinterPc.unprinted]
  | skipped interval hprinter hjson =>
    refine ⟨lines, ih.silent rfl rfl ?_ ih.joined⟩
    rw [receivedOf_append, List.filterMap_append, ih.received]
    simp [receivedOf, JsonLinesObs.received?, hjson]
  | returned hprinter =>
    refine ⟨lines, ih.silent rfl rfl ?_ (ih.joined.goOn (by simp [hprinter]) (by simp [hprinter]))⟩
    rw [List.append_nil, ih.received, hprinter]
    rfl
  | printed line hprinter =>
    have hemitted := ih.joined.emitted (by simp [hprinter])
    refine ⟨lines ++ [line], ?_, ?_, ih.joined.goOn (by simp [hprinter]) (by simp [hprinter])⟩
    · rw [stdoutOf_append, ih.stdout, hemitted]
      simp [stdoutOf, JsonLinesObs.stdout?]
    · rw [receivedOf_append, List.filterMap_append, ih.received, hprinter]
      simp [receivedOf, JsonLinesObs.received?, PrinterPc.unprinted]
  | panicked line hprinter =>
    refine ⟨lines, ih.silent rfl rfl ?_ (ih.joined.goOn (by simp [hprinter]) (by simp [hprinter]))⟩
    rw [List.append_nil, ih.received, hprinter]
    rfl
  | benchmark report hmain => exact ⟨lines, ih.main (by rw [hmain]; rfl) trivial⟩
  | benchmarkFailed e hmain => exact ⟨lines, ih.main (by rw [hmain]; rfl) trivial⟩
  | joined report hmain hprinter => exact ⟨lines, ih.main (by rw [hmain]; rfl) hprinter⟩
  | joinFailed report line hmain hprinter =>
    exact ⟨lines, ih.main (by rw [hmain]; rfl) ⟨line, hprinter⟩⟩
  | emitted report hmain =>
    have hreturned : s.printer = .returned := by
      have hjoined := ih.joined
      rwa [hmain] at hjoined
    refine ⟨lines, ?_, ?_, hreturned⟩
    · rw [stdoutOf_append, ih.stdout, hmain]
      simp [stdoutOf, JsonLinesObs.stdout?, MainPc.emitted]
    · rw [receivedOf_append, List.filterMap_append, ih.received]
      simp [receivedOf, JsonLinesObs.received?]
  | outputFailed report hmain =>
    have hreturned : s.printer = .returned := by
      have hjoined := ih.joined
      rwa [hmain] at hjoined
    exact ⟨lines, ih.main (by rw [hmain]; rfl) hreturned⟩

end Prints

/-! ## The command with JSON lines -/

/-- What `main` has seen of the benchmark. -/
def MainPc.Saw (result : Option (Except RunError BenchmarkReport)) : MainPc → Prop
  | .benchmark => True
  | .printer report | .output report | .done report => result = some (.ok report)
  | .failed (.benchmark e) => result = some (.error e)
  | .failed _ => ∃ report, result = some (.ok report)

theorem MainPc.Saw.mono {result result' : Option (Except RunError BenchmarkReport)} {main : MainPc}
    (h : main.Saw result) (hkept : ∀ r, result = some r → result' = some r) : main.Saw result' := by
  cases main with
  | benchmark => trivial
  | printer _ | output _ | done _ => exact hkept _ h
  | failed e =>
    cases e with
    | benchmark _ => exact hkept _ h
    | join | output => exact h.imp fun _ => hkept _

section JsonCommand

variable {ι σ α ω : Type} [DecidableEq ι] {S : StreamTasks ι σ α ω} {cfg : RunConfig} {started : ℕ}
  {json : IntervalStats → Option String}
  {t : List (Pipe.Obs (Pipe.Obs (ι × ω) EngineObs) JsonLinesObs)}
  {s : Pipe.State (Pipe.State σ PacketEvent (EngineState ι)) IntervalStats JsonLinesState}

/-- The printer ends only when the benchmark has returned and all intervals are received. -/
structure JsonLinesEnds (cfg : RunConfig)
    (s : Pipe.State (Pipe.State σ PacketEvent (EngineState ι)) IntervalStats JsonLinesState) :
    Prop where
  printer : s.consumer.printer = .returned →
    s.channel = [] ∧ ∃ r, s.producer.consumer.result cfg = some r
  main : s.consumer.main.Saw (s.producer.consumer.result cfg)

theorem jsonLinesEnds_reach
    (h : (runCommand S cfg started (jsonLines json)).machine.Reach t s) : JsonLinesEnds cfg s := by
  refine Machine.Reach.invariant (M := (runCommand S cfg started (jsonLines json)).machine)
    (I := fun _ s => JsonLinesEnds cfg s) ⟨nofun, trivial⟩ (fun {_ s _ s' _} _ ih hstep => ?_) h
  cases Pipe.step_effect hstep with
  | produce a p o hp =>
    refine ⟨fun hprinter => ?_, ih.main.mono fun r hr => (result_step hp hr).1⟩
    obtain ⟨hchannel, r, hr⟩ := ih.printer hprinter
    obtain ⟨hresult, hquiet⟩ := result_step hp hr
    refine ⟨?_, r, hresult⟩
    dsimp only
    rw [hchannel]
    exact hquiet
  | recv m channel c o hchannel hclosed hc =>
    cases jsonLinesStep_effect hc with
    | serialized interval line hprinter hjson => exact ⟨nofun, ih.main⟩
    | skipped interval hprinter hjson => exact ⟨by simp [hprinter], ih.main⟩
    | returned hprinter =>
      obtain ⟨rfl, hresult⟩ := hclosed rfl
      exact ⟨fun _ => ⟨rfl, Option.isSome_iff_exists.mp hresult⟩, ih.main⟩
  | own b c o hallows hc =>
    cases jsonLinesStep_effect hc with
    | printed line hprinter | panicked line hprinter => exact ⟨nofun, ih.main⟩
    | benchmark report hmain =>
      have hresult : s.producer.consumer.result cfg = some (.ok report) :=
        of_decide_eq_true hallows
      exact ⟨ih.printer, hresult⟩
    | benchmarkFailed e hmain =>
      have hresult : s.producer.consumer.result cfg = some (.error e) := of_decide_eq_true hallows
      exact ⟨ih.printer, hresult⟩
    | joined report hmain hprinter | emitted report hmain =>
      have hsaw := ih.main
      rw [hmain] at hsaw
      exact ⟨ih.printer, hsaw⟩
    | joinFailed report line hmain hprinter | outputFailed report hmain =>
      have hsaw := ih.main
      rw [hmain] at hsaw
      exact ⟨ih.printer, report, hsaw⟩

/-- In every run of the command with `--jsonl`, however its streams, the engine, the printer and
`main` are interleaved : what is printed are the lines of the first intervals of the run, each once
and in order, and a report only if the command is done. Then all streams returned `Ok`, the report
is that of what the engine took, and it is printed after the lines of all its intervals. If the
command fails with an error of the benchmark, then `run_benchmark` returned it. -/
theorem jsonLines_reports
    (h : (runCommand S cfg started (jsonLines json)).machine.Reach t s) :
    (∃ lines, stdoutOf (Pipe.consumed t) = lines.map .line ++ s.consumer.main.emitted ∧
      lines <+: s.producer.consumer.loop.intervals.filterMap json) ∧
    (∀ report, s.consumer.main = .done report →
      (∀ i, S.ended s.producer.producer i = some .returned) ∧
      report = benchmarkReport cfg started (runInputs (Pipe.produced t)) ∧
      stdoutOf (Pipe.consumed t) =
        (report.intervals.filterMap json).map .line ++ [.report report]) ∧
    ∀ e, s.consumer.main = .failed (.benchmark e) →
      s.producer.consumer.result cfg = some (.error e) := by
  obtain ⟨lines, hprints⟩ := printsLines_reach (Pipe.consumer_reach h)
  have hends := jsonLinesEnds_reach h
  have hintervals : s.producer.consumer.loop.intervals =
      receivedOf (Pipe.consumed t) ++ s.channel := command_intervals h
  refine ⟨⟨lines, hprints.stdout, ?_⟩, fun report hmain => ?_, fun e hmain => ?_⟩
  · rw [hintervals, List.filterMap_append, hprints.received, List.append_assoc]
    exact List.prefix_append _ _
  · have hjoined := hprints.joined
    have hresult := hends.main
    rw [hmain] at hjoined hresult
    obtain ⟨hreport, hreported, hreturned⟩ := returned_report (Pipe.producer_reach h) hresult
    refine ⟨hreturned, hreport, ?_⟩
    have hall : report.intervals.filterMap json = lines := by
      rw [hreported, hintervals, (hends.printer hjoined).1, List.append_nil, hprints.received,
        hjoined]
      exact List.append_nil lines
    rw [hprints.stdout, hall, hmain]
    rfl
  · have hresult := hends.main
    rwa [hmain] at hresult

/-- Two streams that send nothing. -/
def quietTasks : StreamTasks (Fin 2) (Fin 2 → List PacketEvent) (Fin 2) PacketEvent :=
  scriptedTasks (fun _ => .returned) fun _ => []

/-- The text of an interval without packets. -/
def quietJson (i : IntervalStats) : Option String :=
  some ("\x7b\"index\":" ++ toString i.index ++ ",\"start_ms\":" ++ toString i.startMs ++
    ",\"end_ms\":" ++ toString i.endMs ++ ",\"bytes\":0,\"packets_sent\":0,\"packets_acked\":0," ++
    "\"packets_lost\":0,\"throughput_bps\":0.0,\"packet_rate_pps\":0.0,\"loss_pct\":0.0," ++
    "\"jitter_ms\":0.0,\"p50_ms\":0.0,\"p95_ms\":0.0,\"p99_ms\":0.0\x7d")

/-- The report of a tick without packets. -/
def quietReport : BenchmarkReport :=
  benchmarkReport lostWarmup 0 [.tick 350000000]

/-- An interval is made and printed, and then all end. -/
def quietRun : List (Pipe.Action (Pipe.Action (Fin 2) (EngineAction (Fin 2)))
    (ViewAction JsonLinesAction)) :=
  [[.produce (.own (.tick 350000000)), .produce .recv, .recv, .own (.own (.print true))],
    quietTasks.handles.map fun i => .produce (.own (.join i .returned)),
    [.produce (.own .finish), .own (.result (.ok quietReport)), .recv, .own (.own .join),
      .own (.own (.output true))]].flatten

theorem quietRun_exec :
    ((runCommand quietTasks lostWarmup 0 (jsonLines quietJson)).machine.exec
      (runCommand quietTasks lostWarmup 0 (jsonLines quietJson)).machine.init quietRun).map
        (fun r => (r.1.consumer.main matches .done _, (stdoutOf (Pipe.consumed r.2)).length)) =
          some (true, 2) := by
  decide +kernel

theorem jsonLines_reports_quiet :
    ∃ t s report, (runCommand quietTasks lostWarmup 0 (jsonLines quietJson)).machine.Reach t s ∧
      s.consumer.main = .done report ∧
      stdoutOf (Pipe.consumed t) =
        (report.intervals.filterMap quietJson).map .line ++ [.report report] := by
  obtain ⟨⟨s, t⟩, hexec, hshow⟩ := Option.map_eq_some_iff.mp quietRun_exec
  have hreach := Machine.reach_exec hexec
  have hdone := (Prod.mk.inj hshow).1
  dsimp only at hdone
  split at hdone
  · rename_i report hmain
    exact ⟨t, s, report, hreach, hmain, ((jsonLines_reports hreach).2.1 report hmain).2.2⟩
  · cases hdone

/-! ## The command ends -/

/-- How many steps of the printer are left, with so many intervals in the channel. -/
def PrinterPc.left (waiting : ℕ) : PrinterPc → ℕ
  | .receiving => 2 * waiting + 1
  | .printing _ => 2 * waiting + 2
  | .returned | .panicked _ => 0

/-- How many steps of `main` are left. -/
def MainPc.left : MainPc → ℕ
  | .benchmark => 3
  | .printer _ => 2
  | .output _ => 1
  | .done _ | .failed _ => 0

/-- How many steps of the command are left, once the benchmark has returned. -/
def jsonLinesLeft
    (s : Pipe.State (Pipe.State σ PacketEvent (EngineState ι)) IntervalStats JsonLinesState) : ℕ :=
  s.consumer.printer.left s.channel.length + s.consumer.main.left

/-- A step, once the benchmark has returned. -/
theorem jsonLinesLeft_step
    {s' : Pipe.State (Pipe.State σ PacketEvent (EngineState ι)) IntervalStats JsonLinesState}
    {a : Pipe.Action (Pipe.Action α (EngineAction ι)) (ViewAction JsonLinesAction)}
    {o : List (Pipe.Obs (Pipe.Obs (ι × ω) EngineObs) JsonLinesObs)}
    {r : Except RunError BenchmarkReport} (hr : s.producer.consumer.result cfg = some r)
    (hstep : (runCommand S cfg started (jsonLines json)).machine.step s a = some (s', o)) :
    s'.producer.consumer.result cfg = some r ∧
      jsonLinesLeft s' + (if a.consumes then 1 else 0) ≤ jsonLinesLeft s := by
  cases Pipe.step_effect hstep with
  | produce a p o hp =>
    obtain ⟨hresult, hquiet⟩ := result_step hp hr
    have hchannel : o.filterMap (runCommand S cfg started (jsonLines json)).message = [] := hquiet
    exact ⟨hresult, by simp [jsonLinesLeft, hchannel, Pipe.Action.consumes]⟩
  | recv m channel c o hchannel hclosed hc =>
    refine ⟨hr, ?_⟩
    cases jsonLinesStep_effect hc <;>
      simp_all only [jsonLinesLeft, PrinterPc.left, Pipe.Action.consumes, Option.toList,
        List.length_append, List.length_cons, List.length_nil, if_true] <;> omega
  | own b c o hallows hc =>
    refine ⟨hr, ?_⟩
    cases jsonLinesStep_effect hc <;>
      simp_all only [jsonLinesLeft, PrinterPc.left, MainPc.left, Pipe.Action.consumes, if_true] <;>
      omega

/-- As long as the command has not ended, it can go on. -/
theorem exists_jsonLinesStep {r : Except RunError BenchmarkReport}
    (hr : s.producer.consumer.result cfg = some r) (hmain : s.consumer.main.left ≠ 0) :
    ∃ a : Pipe.Action (Pipe.Action α (EngineAction ι)) (ViewAction JsonLinesAction),
      a.consumes ∧
        ((runCommand S cfg started (jsonLines json)).machine.step s a).isSome := by
  cases hm : s.consumer.main with
  | benchmark =>
    refine ⟨.own (.result r), rfl, ?_⟩
    cases r <;>
      simp [Pipe.machine, Pipe.step, Pipe.consume, runCommand, jsonLines, jsonLinesStep, hm, hr]
  | printer report =>
    cases hp : s.consumer.printer with
    | receiving =>
      refine ⟨.recv, rfl, ?_⟩
      cases hchannel : s.channel with
      | nil =>
        simp [Pipe.machine, Pipe.step, Pipe.consume, runCommand, jsonLines, jsonLinesStep, hp,
          hchannel, hr]
      | cons interval channel =>
        cases hjson : json interval <;>
          simp [Pipe.machine, Pipe.step, Pipe.consume, runCommand, jsonLines, jsonLinesStep, hp,
            hchannel, hjson]
    | printing line =>
      exact ⟨.own (.own (.print true)), rfl,
        by simp [Pipe.machine, Pipe.step, Pipe.consume, runCommand, jsonLines, jsonLinesStep, hp]⟩
    | returned | panicked line =>
      exact ⟨.own (.own .join), rfl, by
        simp [Pipe.machine, Pipe.step, Pipe.consume, runCommand, jsonLines, jsonLinesStep, hp, hm]⟩
  | output report =>
    exact ⟨.own (.own (.output true)), rfl,
      by simp [Pipe.machine, Pipe.step, Pipe.consume, runCommand, jsonLines, jsonLinesStep, hm]⟩
  | done report | failed e => exact absurd (by rw [hm]; rfl) hmain

/-- Once the benchmark has returned, at most `jsonLinesLeft` steps of the printer and of `main` are
taken until the command ends, whatever happens in between, and as long as it has not ended one of
them can be taken. -/
theorem jsonLines_ends
    {s' : Pipe.State (Pipe.State σ PacketEvent (EngineState ι)) IntervalStats JsonLinesState}
    {r : Except RunError BenchmarkReport} (hr : s.producer.consumer.result cfg = some r)
    {as : List (Pipe.Action (Pipe.Action α (EngineAction ι)) (ViewAction JsonLinesAction))}
    (he : (runCommand S cfg started (jsonLines json)).machine.exec s as = some (s', t)) :
    as.countP Pipe.Action.consumes + jsonLinesLeft s' ≤ jsonLinesLeft s ∧
    ((∃ report, s'.consumer.main = .done report) ∨ (∃ e, s'.consumer.main = .failed e) ∨
      ∃ a : Pipe.Action (Pipe.Action α (EngineAction ι)) (ViewAction JsonLinesAction),
        a.consumes ∧
          ((runCommand S cfg started (jsonLines json)).machine.step s' a).isSome) := by
  obtain ⟨hr', hcount⟩ := (runCommand S cfg started (jsonLines json)).machine.exec_measure
    (P := fun _ => True) (I := fun s => s.producer.consumer.result cfg = some r) jsonLinesLeft
    Pipe.Action.consumes (fun hr _ hstep => jsonLinesLeft_step hr hstep) hr (fun _ _ => trivial) he
  refine ⟨hcount, ?_⟩
  cases hm : s'.consumer.main with
  | done report => exact .inl ⟨report, rfl⟩
  | failed e => exact .inr (.inl ⟨e, rfl⟩)
  | benchmark | printer _ | output _ =>
    exact .inr (.inr (exists_jsonLinesStep hr' (by simp [hm, MainPc.left])))

/-- The benchmark has returned, and its interval is in the channel. -/
def quietReturned : Pipe.State (Pipe.State (Fin 2 → List PacketEvent) PacketEvent
    (EngineState (Fin 2))) IntervalStats JsonLinesState :=
  ⟨⟨fun _ => [], [], ⟨.returned (.ok ()), 350000000,
    runLoop (lostWarmup.loopConfig 0) {} [.tick 350000000]⟩⟩, quietReport.intervals,
    ⟨.receiving, .benchmark⟩⟩

theorem jsonLines_ends_quiet :
    ∃ s' t, (runCommand quietTasks lostWarmup 0 (jsonLines quietJson)).machine.exec quietReturned
        [.recv, .own (.own (.print true)), .own (.result (.ok quietReport)), .recv,
          .own (.own .join), .own (.own (.output true))] = some (s', t) ∧
      6 + jsonLinesLeft s' ≤ 6 := by
  obtain ⟨⟨s', t⟩, he⟩ := Option.isSome_iff_exists.mp
    (show ((runCommand quietTasks lostWarmup 0 (jsonLines quietJson)).machine.exec quietReturned
      [.recv, .own (.own (.print true)), .own (.result (.ok quietReport)), .recv,
        .own (.own .join), .own (.own (.output true))]).isSome = true by decide +kernel)
  exact ⟨s', t, he, (jsonLines_ends (r := .ok quietReport) rfl he).1⟩

end JsonCommand

end Ipfusch
