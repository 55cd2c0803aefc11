import Ipfusch.StreamReports

/-!
# `run_benchmark` returns

A run comes to its end when its streams do. The tasks of the streams have a rank that their own
steps lower, by at least one event for each that they send, and go on after a pause that is bounded,
unless they wait for something else (`TaskProgress`). Twice this rank, the events in the channel and
the handles left to join bound the steps of the whole run (`TaskProgress.exec_left`), and until it
has returned one of them can be taken (`TaskProgress.exists_counts`).

Streams that share nothing come to their end if each of them does (`StreamProgress.tasks`).
-/

namespace Ipfusch

/-! ## Tasks that come to their end -/

/-- A rank of the tasks that their own steps lower, and that lasts until they have ended or wait for
something else. -/
structure TaskProgress {ι σ α ω : Type} (S : StreamTasks ι σ α ω) where
  /-- The states for which this holds. -/
  Good : σ → Prop
  /-- The steps for which this holds. -/
  allowed : α → Bool
  /-- A step of a task, or of what it waits for. -/
  own : α → Bool
  /-- How much time passes in a step. -/
  time : α → ℕ
  /-- The longest pause. -/
  pause : ℕ
  /-- The tasks wait for what is no step of theirs, and does not come in any bounded time. -/
  waiting : σ → Bool
  rank : σ → ℕ
  step : ∀ {s a s' o}, Good s → allowed a = true → S.machine.step s a = some (s', o) →
    Good s' ∧ rank s' + (if own a = true then 1 else 0) ≤ rank s ∧
      rank s' + (o.filterMap fun ob => S.event ob.2).length ≤ rank s
  progress : ∀ {s}, Good s → S.allEnded s = false → waiting s = false →
    ∃ as : List α, as.all allowed = true ∧ as.any own = true ∧ (as.map time).sum ≤ pause ∧
      (S.machine.exec s as).isSome

namespace TaskProgress

variable {ι σ α ω : Type} [DecidableEq ι] {S : StreamTasks ι σ α ω} (T : TaskProgress S)
  {cfg : LoopConfig}

/-- A step of a run for which this holds. -/
def allowedInRun : Pipe.Action α (EngineAction ι) → Bool
  | .produce a => T.allowed a
  | _ => true

/-- A step of a task or of the engine, but for a tick of the interval timer. -/
def counts : Pipe.Action α (EngineAction ι) → Bool
  | .produce a => T.own a
  | a => !waits a

/-- How much time passes in a step of a run. -/
def timeInRun : Pipe.Action α (EngineAction ι) → ℕ
  | .produce a => T.time a
  | _ => 0

/-- How many steps of the run are left. -/
def left (s : Pipe.State σ PacketEvent (EngineState ι)) : ℕ :=
  2 * T.rank s.producer + stepsLeft S s

omit [DecidableEq ι] in
theorem counts_of_consumes {a : Pipe.Action α (EngineAction ι)} (h : a.consumes = true) :
    T.counts a = !waits a := by
  cases a with
  | produce a => cases h
  | recv | own b => rfl

omit [DecidableEq ι] in
/-- What is sent is still to be received. -/
theorem stepsLeft_produce (s : Pipe.State σ PacketEvent (EngineState ι)) (p : σ)
    (sent : List PacketEvent) :
    stepsLeft S { s with producer := p, channel := s.channel ++ sent } ≤
      stepsLeft S s + sent.length := by
  unfold stepsLeft
  dsimp only
  split
  · rw [List.length_append]
    omega
  · omega
  · omega

theorem left_step {s s' : Pipe.State σ PacketEvent (EngineState ι)}
    {a : Pipe.Action α (EngineAction ι)} {o : List (Pipe.Obs (ι × ω) EngineObs)}
    (hgood : T.Good s.producer) (ha : T.allowedInRun a = true)
    (hstep : (runSystem S cfg).machine.step s a = some (s', o)) :
    T.Good s'.producer ∧ T.left s' + (if T.counts a = true then 1 else 0) ≤ T.left s := by
  cases hconsumes : a.consumes with
  | false =>
    obtain ⟨a, rfl⟩ : ∃ b, a = .produce b := by
      cases a with
      | produce a => exact ⟨a, rfl⟩
      | recv | own b => cases hconsumes
    have heffect : (runSystem S cfg).Effect s (.produce a) s' o := Pipe.step_effect hstep
    cases heffect with
    | produce a p o hp =>
      obtain ⟨hgood', hown, hsent⟩ := T.step hgood ha hp
      have hleft := stepsLeft_produce (S := S) s p (o.filterMap fun ob => S.event ob.2)
      refine ⟨hgood', ?_⟩
      change 2 * T.rank p + stepsLeft S { s with
        producer := p
        channel := s.channel ++ o.filterMap fun ob => S.event ob.2 } +
          (if T.own a = true then 1 else 0) ≤ 2 * T.rank s.producer + stepsLeft S s
      omega
  | true =>
    obtain ⟨hproducer, hleft⟩ := stepsLeft_engine hconsumes hstep
    refine ⟨hproducer ▸ hgood, ?_⟩
    unfold left
    rw [hproducer, T.counts_of_consumes hconsumes]
    cases hwaits : waits a <;> simp only [hwaits, Bool.not_false, Bool.not_true, if_true,
      Bool.false_eq_true, if_false] at hleft ⊢ <;> omega

/-- A run from a good state takes a bounded number of steps of the tasks and of the engine, in
whatever order and whatever happens in between. -/
theorem exec_left {s s' : Pipe.State σ PacketEvent (EngineState ι)} (hgood : T.Good s.producer)
    {as : List (Pipe.Action α (EngineAction ι))} {t : List (Pipe.Obs (ι × ω) EngineObs)}
    (has : ∀ a ∈ as, T.allowedInRun a = true)
    (he : (runSystem S cfg).machine.exec s as = some (s', t)) :
    T.Good s'.producer ∧ as.countP T.counts + T.left s' ≤ T.left s :=
  (runSystem S cfg).machine.exec_measure
    (P := fun a => T.allowedInRun a = true) (I := fun s => T.Good s.producer) T.left T.counts
    (fun hgood ha hstep => T.left_step hgood ha hstep) hgood has he

variable (cfg) in
/-- One of these steps can be taken, after a pause that is no longer than the longest one. -/
def GoesOn (s : Pipe.State σ PacketEvent (EngineState ι)) : Prop :=
  ∃ as : List (Pipe.Action α (EngineAction ι)), as.all T.allowedInRun = true ∧
    as.any T.counts = true ∧ (as.map T.timeInRun).sum ≤ T.pause ∧
    ((runSystem S cfg).machine.exec s as).isSome

variable (cfg) in
/-- As long as `run_benchmark` has not returned, something can be done, unless the tasks wait for
something else. -/
theorem exists_counts {s : Pipe.State σ PacketEvent (EngineState ι)} (hgood : T.Good s.producer)
    (hpc : ∀ result, s.consumer.pc ≠ .returned result) :
    T.GoesOn cfg s ∨ S.allEnded s.producer = false ∧ T.waiting s.producer = true := by
  cases hall : S.allEnded s.producer with
  | true =>
    obtain ⟨a, hwaits, hsome⟩ : ∃ a, waits a = false ∧
        ((runSystem S cfg).machine.step s a).isSome := exists_step hall hpc
    have hconsumes : a.consumes = true := by
      cases a with
      | produce a => cases hwaits
      | recv | own b => rfl
    refine .inl ⟨[a], ?_, ?_, ?_, ?_⟩
    · cases a with
      | produce a => cases hwaits
      | recv | own b => rfl
    · rw [List.any_cons, List.any_nil, Bool.or_false, T.counts_of_consumes hconsumes, hwaits]
      rfl
    · cases a with
      | produce a => cases hwaits
      | recv | own b => exact Nat.zero_le _
    · obtain ⟨⟨s', o⟩, hstep⟩ := Option.isSome_iff_exists.mp hsome
      simp [Machine.exec, hstep]
  | false =>
    cases hwaiting : T.waiting s.producer with
    | true => exact .inr ⟨rfl, rfl⟩
    | false =>
      obtain ⟨as, hallowed, hown, hpause, hsome⟩ := T.progress hgood hall hwaiting
      obtain ⟨⟨p, o⟩, hexec⟩ := Option.isSome_iff_exists.mp hsome
      refine .inl ⟨as.map .produce, ?_, ?_, ?_, ?_⟩
      · rw [List.all_map]
        exact hallowed
      · rw [List.any_map]
        exact hown
      · rw [List.map_map]
        exact hpause
      · rw [Pipe.exec_produce (P := runSystem S cfg) hexec]
        rfl

/-- Without anything else to wait for, the run returns. -/
theorem returned_or_goesOn (hwaiting : ∀ p, T.waiting p = true → S.allEnded p = true)
    {s : Pipe.State σ PacketEvent (EngineState ι)} (hgood : T.Good s.producer) :
    (∃ result, s.consumer.pc = .returned result) ∨ T.GoesOn cfg s := by
  by_cases hpc : ∃ result, s.consumer.pc = .returned result
  · exact .inl hpc
  · refine .inr ((T.exists_counts cfg hgood fun result hr => hpc ⟨result, hr⟩).resolve_right ?_)
    rintro ⟨hall, hwaits⟩
    rw [hwaiting _ hwaits] at hall
    cases hall

omit [DecidableEq ι] in
/-- Where all steps of the tasks are allowed, so are those of a run. -/
theorem allowedInRun_of_allowed (hallowed : ∀ a, T.allowed a = true)
    (a : Pipe.Action α (EngineAction ι)) : T.allowedInRun a = true := by
  cases a with
  | produce a => exact hallowed a
  | recv | own b => rfl

end TaskProgress

theorem StreamTasks.exists_open {ι σ α ω : Type} {S : StreamTasks ι σ α ω} {s : σ}
    (h : S.allEnded s = false) : ∃ i, S.ended s i = none := by
  by_contra hnone
  refine Bool.false_ne_true (h.symm.trans (StreamTasks.allEnded_iff.mpr fun i => ?_))
  exact Option.ne_none_iff_exists'.mp fun hi => hnone ⟨i, hi⟩

/-! ## Streams that share nothing -/

/-- The same for each of some streams. -/
structure StreamProgress {ι ρ σ α ω : Type} (M : ι → ρ → Machine σ α ω)
    (event : ω → Option PacketEvent) (exit : σ → Option StreamExit) where
  Good : ι → ρ → σ → Prop
  allowed : α → Bool
  own : α → Bool
  time : α → ℕ
  pause : ℕ
  waiting : σ → Bool
  rank : ι → σ → ℕ
  step : ∀ {i p s a s' o}, Good i p s → allowed a = true → (M i p).step s a = some (s', o) →
    Good i p s' ∧ rank i s' + (if own a = true then 1 else 0) ≤ rank i s ∧
      rank i s' + (o.filterMap event).length ≤ rank i s
  progress : ∀ {i p s}, Good i p s → exit s = none → waiting s = false →
    ∃ as : List α, as.all allowed = true ∧ as.any own = true ∧ (as.map time).sum ≤ pause ∧
      ((M i p).exec s as).isSome

namespace StreamProgress

variable {ρ σ α ω : Type} {streams : UInt16} {M : Fin streams.toNat → ρ → Machine σ α ω}
  {event : ω → Option PacketEvent} {exit : σ → Option StreamExit}
  (T : StreamProgress M event exit)

/-- The set-up of the stream is over, and has failed or led to a good state. -/
def GoodStage (i : Fin streams.toNat) : Fleet.Stage ρ SetUpFailure σ → Prop
  | .before => False
  | .failed _ => True
  | .running p c => T.Good i p c

def allowedStage : Fleet.StageAction ρ SetUpFailure α → Bool
  | .step a => T.allowed a
  | .enter _ | .fail _ => true

def ownStage : Fleet.StageAction ρ SetUpFailure α → Bool
  | .step a => T.own a
  | .enter _ | .fail _ => false

def timeStage : Fleet.StageAction ρ SetUpFailure α → ℕ
  | .step a => T.time a
  | .enter _ | .fail _ => 0

def waitingStage : Fleet.Stage ρ SetUpFailure σ → Bool
  | .running _ c => T.waiting c
  | .before | .failed _ => false

def rankStage (i : Fin streams.toNat) : Fleet.Stage ρ SetUpFailure σ → ℕ
  | .running _ c => T.rank i c
  | .before | .failed _ => 0

theorem stage_step {i : Fin streams.toNat} {s s' : Fleet.Stage ρ SetUpFailure σ}
    {a : Fleet.StageAction ρ SetUpFailure α} {o : List ω} (hgood : T.GoodStage i s)
    (ha : T.allowedStage a = true) (hstep : (Fleet.staged (M i)).step s a = some (s', o)) :
    T.GoodStage i s' ∧ T.rankStage i s' + (if T.ownStage a = true then 1 else 0) ≤
        T.rankStage i s ∧
      T.rankStage i s' + (o.filterMap event).length ≤ T.rankStage i s := by
  cases s with
  | before => exact hgood.elim
  | failed e => cases a <;> cases hstep
  | running p c =>
    cases a with
    | enter q | fail e => cases hstep
    | step a =>
      obtain ⟨⟨c', o'⟩, hc, heq⟩ := Option.map_eq_some_iff.mp hstep
      obtain ⟨rfl, rfl⟩ := Prod.mk.inj heq
      exact T.step hgood ha hc

theorem stage_progress {i : Fin streams.toNat} {s : Fleet.Stage ρ SetUpFailure σ}
    (hgood : T.GoodStage i s) (hopen : stageExit exit s = none)
    (hwaiting : T.waitingStage s = false) :
    ∃ as : List (Fleet.StageAction ρ SetUpFailure α), as.all T.allowedStage = true ∧
      as.any T.ownStage = true ∧ (as.map T.timeStage).sum ≤ T.pause ∧
      ((Fleet.staged (M i)).exec s as).isSome := by
  cases s with
  | before => exact hgood.elim
  | failed e => cases hopen
  | running p c =>
    obtain ⟨as, hallowed, hown, hpause, hsome⟩ := T.progress hgood hopen hwaiting
    obtain ⟨⟨c', o⟩, hexec⟩ := Option.isSome_iff_exists.mp hsome
    refine ⟨as.map .step, ?_, ?_, ?_, ?_⟩
    · rw [List.all_map]
      exact hallowed
    · rw [List.any_map]
      exact hown
    · rw [List.map_map]
      exact hpause
    · rw [Fleet.staged_exec hexec]
      rfl

/-- The streams as tasks come to their end. -/
def tasks (hquiet : EndsQuietly M event exit) :
    TaskProgress (stagedTasks M event exit hquiet) where
  Good s := ∀ i, T.GoodStage i (s i)
  allowed a := T.allowedStage a.2
  own a := T.ownStage a.2
  time a := T.timeStage a.2
  pause := T.pause
  waiting s := decide (∀ i, stageExit exit (s i) = none → T.waitingStage (s i) = true)
  rank s := ∑ i, T.rankStage i (s i)
  step {s a s' o} hgood ha hstep := by
    obtain ⟨c, o', hc, rfl, rfl⟩ := Fleet.step_cases (M := fun i => Fleet.staged (M i)) hstep
    obtain ⟨hgood', hown, hevents⟩ := T.stage_step (hgood a.1) ha hc
    refine ⟨fun j => ?_, Fleet.sum_update_add_le T.rankStage s hown,
      Fleet.sum_update_add_le T.rankStage s ?_⟩
    · by_cases hj : j = a.1
      · subst hj
        rw [Function.update_self]
        exact hgood'
      · rw [Function.update_of_ne hj]
        exact hgood j
    · rw [List.filterMap_map]
      exact hevents
  progress {s} hgood _ hwaiting := by
    obtain ⟨i, hwaits⟩ := not_forall.mp (of_decide_eq_false hwaiting)
    obtain ⟨hi, hgoes⟩ := Classical.not_imp.mp hwaits
    obtain ⟨as, hallowed, hown, hpause, hsome⟩ :=
      T.stage_progress (hgood i) hi (Bool.eq_false_of_not_eq_true hgoes)
    obtain ⟨⟨c, o⟩, hexec⟩ := Option.isSome_iff_exists.mp hsome
    refine ⟨as.map (Prod.mk i), ?_, ?_, ?_, ?_⟩
    · rw [List.all_map]
      exact hallowed
    · rw [List.any_map]
      exact hown
    · rw [List.map_map]
      exact hpause
    · have hfleet := Fleet.exec_part (M := fun i => Fleet.staged (M i)) hexec
      exact Option.isSome_iff_exists.mpr ⟨_, hfleet⟩

end StreamProgress

end Ipfusch
