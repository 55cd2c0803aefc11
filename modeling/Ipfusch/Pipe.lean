import Ipfusch.Machine

/-!
# Machines joined by a channel

A producer puts messages into a channel, which is first in, first out and has no bound, and
a consumer receives them. A receive yields `none` if the channel is empty and the producer has
dropped its end. Between two receives the consumer can take steps of its own.

A run of the two is a run of the producer (`producer_reach`) and a run of the consumer
(`consumer_reach`), and the messages sent are those received and those in the channel, in order
(`sent_eq`).
-/

namespace Pipe

/-- A step of a consumer : a receive or a step of its own. -/
inductive Input (μ β : Type*)
  | recv (m : Option μ)
  | own (b : β)

/-- The two machines and the channel between them. -/
structure State (σ μ τ : Type*) where
  producer : σ
  channel : List μ
  consumer : τ

/-- What can come next. -/
inductive Action (α β : Type*)
  | produce (a : α)
  | recv
  | own (b : β)

/-- It is a step of the consumer. -/
def Action.consumes {α β : Type*} : Action α β → Bool
  | .produce _ => false
  | .recv | .own _ => true

/-- What happens in a run. -/
inductive Obs (ω υ : Type*)
  | producer (o : ω)
  | consumer (o : υ)

end Pipe

/-- A producer and a consumer. -/
structure Pipe (σ α ω μ τ β υ : Type*) where
  producer : Machine σ α ω
  /-- The message that is sent. -/
  message : ω → Option μ
  /-- The producer has dropped its end. -/
  closed : σ → Bool
  consumer : Machine τ (Pipe.Input μ β) υ
  /-- The message that was received. -/
  received : υ → Option μ
  /-- The consumer can take a step of its own. -/
  allows : σ → β → Bool
  received_recv : ∀ {s m s' o}, consumer.step s (.recv m) = some (s', o) →
    o.filterMap received = m.toList
  received_own : ∀ {s b s' o}, consumer.step s (.own b) = some (s', o) → o.filterMap received = []

namespace Pipe

variable {σ α ω μ τ β υ : Type*} (P : Pipe σ α ω μ τ β υ)

/-- The consumer takes a step. -/
def consume (s : State σ μ τ) (channel : List μ) (i : Input μ β) :
    Option (State σ μ τ × List (Obs ω υ)) :=
  (P.consumer.step s.consumer i).map fun r =>
    ({ s with channel := channel, consumer := r.1 }, r.2.map .consumer)

/-- One step of the two. -/
def step (s : State σ μ τ) : Action α β → Option (State σ μ τ × List (Obs ω υ))
  | .produce a => (P.producer.step s.producer a).map fun r =>
      ({ s with producer := r.1, channel := s.channel ++ r.2.filterMap P.message },
        r.2.map .producer)
  | .recv =>
    match s.channel with
    | m :: channel => P.consume s channel (.recv (some m))
    | [] => if P.closed s.producer then P.consume s [] (.recv none) else none
  | .own b => if P.allows s.producer b then P.consume s s.channel (.own b) else none

/-- The two machines, with an empty channel. -/
def machine : Machine (State σ μ τ) (Action α β) (Obs ω υ) where
  init := ⟨P.producer.init, [], P.consumer.init⟩
  step := P.step

/-! ## What a step can do -/

/-- What a step does. -/
inductive Effect (s : State σ μ τ) : Action α β → State σ μ τ → List (Obs ω υ) → Prop
  | produce (a : α) (s' : σ) (o : List ω) (hstep : P.producer.step s.producer a = some (s', o)) :
      Effect s (.produce a) { s with producer := s', channel := s.channel ++ o.filterMap P.message }
        (o.map .producer)
  | recv (m : Option μ) (channel : List μ) (s' : τ) (o : List υ)
      (hchannel : s.channel = m.toList ++ channel)
      (hclosed : m = none → channel = [] ∧ P.closed s.producer = true)
      (hstep : P.consumer.step s.consumer (.recv m) = some (s', o)) :
      Effect s .recv { s with channel := channel, consumer := s' } (o.map .consumer)
  | own (b : β) (s' : τ) (o : List υ) (hallows : P.allows s.producer b = true)
      (hstep : P.consumer.step s.consumer (.own b) = some (s', o)) :
      Effect s (.own b) { s with consumer := s' } (o.map .consumer)

variable {P} {s s' : State σ μ τ} {t : List (Obs ω υ)} {o : List (Obs ω υ)}

theorem consume_eq_some {channel : List μ} {i : Input μ β}
    (h : P.consume s channel i = some (s', o)) :
    ∃ c o', P.consumer.step s.consumer i = some (c, o') ∧
      s' = { s with channel := channel, consumer := c } ∧ o = o'.map .consumer := by
  obtain ⟨⟨c, o'⟩, hstep, h⟩ := Option.map_eq_some_iff.mp h
  obtain ⟨rfl, rfl⟩ := Prod.mk.inj h
  exact ⟨c, o', hstep, rfl, rfl⟩

theorem step_effect {a : Action α β} (h : P.step s a = some (s', o)) : P.Effect s a s' o := by
  unfold step at h
  cases a with
  | produce a =>
    obtain ⟨⟨p, o'⟩, hstep, h⟩ := Option.map_eq_some_iff.mp h
    obtain ⟨rfl, rfl⟩ := Prod.mk.inj h
    exact .produce a p o' hstep
  | recv =>
    dsimp only at h
    split at h
    · rename_i m channel hchannel
      obtain ⟨c, o', hstep, rfl, rfl⟩ := consume_eq_some h
      exact .recv (some m) channel c o' hchannel nofun hstep
    · rename_i hchannel
      split_ifs at h with hclosed
      obtain ⟨c, o', hstep, rfl, rfl⟩ := consume_eq_some h
      exact .recv none [] c o' hchannel (fun _ => ⟨rfl, hclosed⟩) hstep
  | own b =>
    dsimp only at h
    split_ifs at h with hallows
    obtain ⟨c, o', hstep, rfl, rfl⟩ := consume_eq_some h
    exact .own b c o' hallows hstep

theorem Effect.step_eq {a : Action α β} (h : P.Effect s a s' o) : P.step s a = some (s', o) := by
  cases h with
  | produce a p o hstep => exact congrArg (Option.map _) hstep
  | recv m channel c o hchannel hclosed hstep =>
    cases m with
    | none =>
      obtain ⟨rfl, hclosed⟩ := hclosed rfl
      have hchannel : s.channel = [] := hchannel
      simp only [step, hchannel, hclosed, if_true, consume, hstep, Option.map_some]
    | some m =>
      have hchannel : s.channel = m :: channel := hchannel
      simp only [step, hchannel, consume, hstep, Option.map_some]
  | own b c o hallows hstep =>
    simp only [step, hallows, if_true, consume, hstep, Option.map_some]

/-! ## What a run shows -/

/-- What the producer shows. -/
def Obs.producer? : Obs ω υ → Option ω
  | .producer o => some o
  | .consumer _ => none

/-- What the consumer shows. -/
def Obs.consumer? : Obs ω υ → Option υ
  | .producer _ => none
  | .consumer o => some o

/-- The producer's part of a run. -/
def produced (t : List (Obs ω υ)) : List ω :=
  t.filterMap Obs.producer?

/-- The consumer's part of a run. -/
def consumed (t : List (Obs ω υ)) : List υ :=
  t.filterMap Obs.consumer?

section Traces

variable (t : List (Obs ω υ)) (o : List ω) (o' : List υ)

@[simp] theorem produced_append_producer :
    produced (t ++ o.map .producer) = produced t ++ o := by
  simp [produced, List.filterMap_map, Function.comp_def, Obs.producer?]

@[simp] theorem produced_append_consumer : produced (t ++ o'.map .consumer) = produced t := by
  simp [produced, List.filterMap_map, Function.comp_def, Obs.producer?]

@[simp] theorem consumed_append_producer : consumed (t ++ o.map .producer) = consumed t := by
  simp [consumed, List.filterMap_map, Function.comp_def, Obs.consumer?]

@[simp] theorem consumed_append_consumer :
    consumed (t ++ o'.map .consumer) = consumed t ++ o' := by
  simp [consumed, List.filterMap_map, Function.comp_def, Obs.consumer?]

end Traces

/-- A run of the two is a run of the producer. -/
theorem producer_reach (h : P.machine.Reach t s) :
    P.producer.Reach (produced t) s.producer := by
  refine h.invariant (I := fun t s => P.producer.Reach (produced t) s.producer) .start
    fun _ ih hstep => ?_
  cases step_effect hstep with
  | produce a p o hp =>
    rw [produced_append_producer]
    exact ih.step hp
  | recv _ _ _ _ _ _ _ | own _ _ _ _ _ =>
    rw [produced_append_consumer]
    exact ih

/-- A run of the two is a run of the consumer. -/
theorem consumer_reach (h : P.machine.Reach t s) :
    P.consumer.Reach (consumed t) s.consumer := by
  refine h.invariant (I := fun t s => P.consumer.Reach (consumed t) s.consumer) .start
    fun _ ih hstep => ?_
  cases step_effect hstep with
  | produce _ _ _ _ =>
    rw [consumed_append_producer]
    exact ih
  | recv m _ c o _ _ hc =>
    rw [consumed_append_consumer]
    exact ih.step hc
  | own b c o _ hc =>
    rw [consumed_append_consumer]
    exact ih.step hc

/-- The producer takes steps. -/
theorem exec_produce {as : List α} {p : σ} {o : List ω}
    (h : P.producer.exec s.producer as = some (p, o)) :
    P.machine.exec s (as.map .produce) = some ({ s with
      producer := p
      channel := s.channel ++ o.filterMap P.message }, o.map .producer) := by
  induction as generalizing s o with
  | nil =>
    obtain ⟨rfl, rfl⟩ := Prod.mk.inj (Option.some.inj h)
    simp [Machine.exec]
  | cons a as ih =>
    obtain ⟨p₁, o₁, o₂, hstep, hrest, rfl⟩ := Machine.exec_cons h
    have hproduce : P.machine.step s (.produce a) = some ({ s with
        producer := p₁
        channel := s.channel ++ o₁.filterMap P.message }, o₁.map .producer) :=
      congrArg (Option.map _) hstep
    rw [List.map_cons, Machine.exec, hproduce]
    dsimp only
    rw [ih hrest]
    simp

/-- The messages sent are those received and those in the channel : none is lost, none is there
twice, and they keep their order. -/
theorem sent_eq (h : P.machine.Reach t s) :
    (produced t).filterMap P.message = (consumed t).filterMap P.received ++ s.channel := by
  refine h.invariant (I := fun t s => (produced t).filterMap P.message =
    (consumed t).filterMap P.received ++ s.channel) rfl fun _ ih hstep => ?_
  cases step_effect hstep with
  | produce a p o _ =>
    rw [produced_append_producer, consumed_append_producer, List.filterMap_append, ih,
      List.append_assoc]
  | recv m channel c o hchannel _ hc =>
    rw [produced_append_consumer, consumed_append_consumer, List.filterMap_append, ih,
      P.received_recv hc, hchannel, List.append_assoc]
  | own b c o _ hc =>
    rw [produced_append_consumer, consumed_append_consumer, List.filterMap_append, ih,
      P.received_own hc, List.append_nil]

end Pipe
