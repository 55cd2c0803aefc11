import Ipfusch.Framing

/-!
# Stop and wait

`run_stream_udp` and `run_stream_quic` share their loop : send a packet, wait for its echo
until a timeout, report it, go on with the next one. `waitTick` are the steps of the loop
that have nothing to do with the transport, `WaitEffect` what a step of either client can
do to the loop's variables, and `Timed` the invariant of the times at which packets are
sent and reported.

`LossIsReal` says that a packet is reported as lost only if its echo did not arrive before
the timeout, counted from its send, was over.
-/

namespace Ipfusch

/-- Where the loop is. -/
inductive WaitPc
  /-- `let mut next_send = Instant::now()` -/
  | begin
  /-- `while Instant::now() < end` -/
  | head
  /-- `if now < next_send` -/
  | pace
  /-- `sleep_until(next_send)` -/
  | paceSleep (delay : ℕ)
  /-- `seq += 1` and the time stamp. -/
  | stamp
  /-- The send of a packet stamped `sendMonoNs`. -/
  | send (sendMonoNs : ℕ)
  /-- `let measured = Instant::now() >= warmup_until` -/
  | measure (sendMonoNs : ℕ)
  /-- The start of the timeout. -/
  | arm (sendMonoNs : ℕ) (measured : Bool)
  /-- Waiting for the echo until `deadline`. -/
  | recv (sendMonoNs : ℕ) (measured : Bool) (deadline : ℕ)
  /-- The loop was left. -/
  | done
  /-- Returned an error. -/
  | failed
  /-- Panicked. -/
  | panicked
  deriving DecidableEq, Repr

/-- The variables of the loop. -/
structure WaitState where
  start : ℕ
  pc : WaitPc
  seq : ℕ
  nextSend : ℕ
  deriving DecidableEq, Repr

/-- What happens in a run, with the time. `β` is what arrives from the network. -/
inductive WaitObs (β : Type)
  /-- A packet was handed to the transport. -/
  | sent (seq time : ℕ)
  | arrived (b : β) (time : ℕ)
  /-- A `PacketEvent` is sent. -/
  | event (e : PacketEvent)
  /-- The loop is left because a header was not decoded. -/
  | decodeFailed (seq : ℕ)
  deriving DecidableEq, Repr

/-- The next step of the loop, where the transport has no part in it. -/
def waitTick (spec : StreamRunSpec) (s : WaitState) (now : ℕ) : Option WaitState :=
  let warmupUntil := s.start + spec.warmup
  let endsAt := warmupUntil + spec.duration
  match s.pc with
  | .begin => some { s with pc := .head, nextSend := now }
  | .head => if now < endsAt then some { s with pc := .pace } else some { s with pc := .done }
  | .pace =>
    match pacingDelay spec.payloadBytes spec.rateBps with
    | none => some { s with pc := .stamp }
    | some delay =>
      if now < s.nextSend then some { s with pc := .paceSleep delay }
      else some { s with pc := .stamp, nextSend := s.nextSend + delay }
  | .paceSleep delay =>
    if s.nextSend ≤ now then some { s with pc := .stamp, nextSend := s.nextSend + delay }
    else none
  | .stamp =>
    if s.seq + 1 < 2 ^ 64 then some { s with pc := .send now, seq := s.seq + 1 }
    else some { s with pc := .panicked }
  | .measure sendMonoNs => some { s with pc := .arm sendMonoNs (decide (warmupUntil ≤ now)) }
  | .arm sendMonoNs measured => some { s with pc := .recv sendMonoNs measured (now + spec.timeout) }
  | .send _ | .recv _ _ _ | .done | .failed | .panicked => none

/-- The header of the packet that is sent. -/
def WaitState.header (spec : StreamRunSpec) (s : WaitState) (sendMonoNs : ℕ) : DataHeader :=
  packetHeader spec (UInt64.ofNat s.seq) (UInt64.ofNat sendMonoNs)

@[simp] theorem WaitState.header_pc (spec : StreamRunSpec) (s : WaitState) (pc : WaitPc)
    (sendMonoNs : ℕ) : { s with pc := pc }.header spec sendMonoNs = s.header spec sendMonoNs := rfl

/-- The event of the packet that was sent. -/
def WaitState.report (spec : StreamRunSpec) (s : WaitState) (sendMonoNs : ℕ) (measured : Bool)
    (recvMonoNs : Option ℕ) : PacketEvent where
  streamId := spec.streamId
  seq := s.seq
  bytes := spec.payloadBytes.toNat
  sendMonoNs := sendMonoNs
  recvMonoNs := recvMonoNs
  measured := measured

/-- The loop after a header was read into `ack` : it fails, or reports the packet, as received
if the header has its number. -/
def onHeader {β : Type} (spec : StreamRunSpec) (s : WaitState) (sendMonoNs : ℕ) (measured : Bool)
    (ack : List UInt8) (now : ℕ) : WaitState × List (WaitObs β) :=
  match DataHeader.decode ack with
  | .error _ => ({ s with pc := .failed }, [.decodeFailed s.seq])
  | .ok header =>
    ({ s with pc := .head }, [.event (s.report spec sendMonoNs measured
      (if header.seq.toNat = s.seq then some now else none))])

theorem onHeader_of_seq {β : Type} {spec : StreamRunSpec} {s : WaitState} {ack : List UInt8}
    {header : DataHeader} (hd : DataHeader.decode ack = .ok header)
    (hseq : header.seq.toNat = s.seq) (sendMonoNs : ℕ) (measured : Bool) (now : ℕ) :
    onHeader (β := β) spec s sendMonoNs measured ack now =
      ({ s with pc := .head }, [.event (s.report spec sendMonoNs measured (some now))]) := by
  unfold onHeader
  rw [hd]
  dsimp only
  rw [if_pos hseq]

/-- A packet is reported as lost only if no echo of it arrived before `timeout`, counted from
its send, was over. -/
def LossIsReal {β : Type} (timeout : ℕ) (echo : ℕ → β → Prop) (t : List (WaitObs β)) : Prop :=
  ∀ e, .event e ∈ t → e.recvMonoNs = none → ∀ sentAt, .sent e.seq sentAt ∈ t →
    ∀ b time, .arrived b time ∈ t → echo e.seq b → sentAt + timeout ≤ time

/-! ## What a step can do -/

/-- A packet has its number and is not reported. -/
def WaitPc.waiting : WaitPc → Bool
  | .send _ | .measure _ | .arm _ _ | .recv _ _ _ => true
  | _ => false

/-- The packet is not handed to the transport. -/
def WaitPc.unsent : WaitPc → Bool
  | .send _ => true
  | _ => false

/-- What a step of the client does to the variables of the loop at the time `now`, and what it
shows. -/
inductive WaitEffect {β : Type} (spec : StreamRunSpec) (now : ℕ) (s : WaitState) :
    WaitState → List (WaitObs β) → Prop
  /-- Between two packets, or after the last one. -/
  | idle (s' : WaitState) (hseq : s'.seq = s.seq) (hpc : s'.pc.waiting = false) :
      WaitEffect spec now s s' []
  | decodeFailed (s' : WaitState) (hseq : s'.seq = s.seq) (hpc : s'.pc.waiting = false) :
      WaitEffect spec now s s' [.decodeFailed s.seq]
  | stamp (s' : WaitState) (hpc : s.pc.waiting = false) (hlt : s.seq + 1 < 2 ^ 64)
      (hseq : s'.seq = s.seq + 1) (hpc' : s'.pc = .send now) : WaitEffect spec now s s' []
  | sent (sendMonoNs : ℕ) (hpc : s.pc = .send sendMonoNs) :
      WaitEffect spec now s { s with pc := .measure sendMonoNs } [.sent s.seq now]
  | measured (sendMonoNs : ℕ) (measured : Bool) (hpc : s.pc = .measure sendMonoNs) :
      WaitEffect spec now s { s with pc := .arm sendMonoNs measured } []
  | arm (sendMonoNs : ℕ) (measured : Bool) (hpc : s.pc = .arm sendMonoNs measured) :
      WaitEffect spec now s { s with pc := .recv sendMonoNs measured (now + spec.timeout) } []
  | report (sendMonoNs : ℕ) (measured : Bool) (deadline : ℕ) (recvMonoNs : Option ℕ)
      (hpc : s.pc = .recv sendMonoNs measured deadline) :
      WaitEffect spec now s { s with pc := .head }
        [.event (s.report spec sendMonoNs measured recvMonoNs)]

/-- Nothing arrives in a step of the client. -/
theorem WaitEffect.not_arrived {β : Type} {spec : StreamRunSpec} {now : ℕ} {s s' : WaitState}
    {o : List (WaitObs β)} (h : WaitEffect spec now s s' o) {b : β} {time : ℕ} :
    .arrived b time ∉ o := by
  cases h <;> simp

theorem waitTick_effect {β : Type} {spec : StreamRunSpec} {now : ℕ} {s s' : WaitState}
    (h : waitTick spec s now = some s') : WaitEffect (β := β) spec now s s' [] := by
  unfold waitTick at h
  dsimp only at h
  cases hpc : s.pc with
  | begin =>
    simp only [hpc, Option.some.injEq] at h
    subst h
    exact .idle _ rfl rfl
  | head =>
    simp only [hpc] at h
    split_ifs at h <;> obtain rfl := Option.some.inj h <;> exact .idle _ rfl rfl
  | pace =>
    simp only [hpc] at h
    cases hdelay : pacingDelay spec.payloadBytes spec.rateBps with
    | none =>
      simp only [hdelay, Option.some.injEq] at h
      subst h
      exact .idle _ rfl rfl
    | some delay =>
      simp only [hdelay] at h
      split_ifs at h <;> obtain rfl := Option.some.inj h <;> exact .idle _ rfl rfl
  | paceSleep delay =>
    simp only [hpc] at h
    split_ifs at h
    obtain rfl := Option.some.inj h
    exact .idle _ rfl rfl
  | stamp =>
    simp only [hpc] at h
    split_ifs at h with hlt
    · obtain rfl := Option.some.inj h
      exact .stamp _ (by rw [hpc]; rfl) hlt rfl rfl
    · obtain rfl := Option.some.inj h
      exact .idle _ rfl rfl
  | measure sendMonoNs =>
    simp only [hpc, Option.some.injEq] at h
    subst h
    exact .measured sendMonoNs _ hpc
  | arm sendMonoNs measured =>
    simp only [hpc, Option.some.injEq] at h
    subst h
    exact .arm sendMonoNs measured hpc
  | send _ | recv _ _ _ | done | failed | panicked =>
    simp only [hpc, reduceCtorEq] at h

/-! ## The times of a run -/

/-- Packets are sent and reported in order, each once, a wait lasts at least the timeout after
the send, and for a packet reported as lost the timeout is over. -/
structure Timed {β : Type} (spec : StreamRunSpec) (clock : ℕ) (t : List (WaitObs β))
    (s : WaitState) : Prop where
  sent_le : ∀ {seq time}, .sent seq time ∈ t → seq ≤ s.seq ∧ time ≤ clock
  sent_lt : s.pc.unsent = true → ∀ {seq time}, .sent seq time ∈ t → seq < s.seq
  event_le : ∀ {e}, .event e ∈ t → e.seq ≤ s.seq
  event_lt : s.pc.waiting = true → ∀ {e}, .event e ∈ t → e.seq < s.seq
  deadline : ∀ {sendMonoNs measured deadline}, s.pc = .recv sendMonoNs measured deadline →
    ∀ {time}, .sent s.seq time ∈ t → time + spec.timeout ≤ deadline
  lost : ∀ {e}, .event e ∈ t → e.recvMonoNs = none →
    ∀ {time}, .sent e.seq time ∈ t → time + spec.timeout ≤ clock

section Timed

variable {β : Type} {spec : StreamRunSpec} {clock : ℕ} {t : List (WaitObs β)} {s s' : WaitState}

/-- Before the loop, things only arrive. -/
theorem timed_init (spec : StreamRunSpec) (clock : ℕ) (s : WaitState)
    (ht : ∀ o ∈ t, ∃ b time, o = .arrived b time) : Timed spec clock t s := by
  have hsent : ∀ {seq time}, .sent seq time ∉ t := fun hmem => by
    obtain ⟨_, _, h⟩ := ht _ hmem
    cases h
  have hevent : ∀ {e}, .event e ∉ t := fun hmem => by
    obtain ⟨_, _, h⟩ := ht _ hmem
    cases h
  exact ⟨fun hmem => absurd hmem hsent, fun _ _ _ hmem => absurd hmem hsent,
    fun hmem => absurd hmem hevent, fun _ _ hmem => absurd hmem hevent,
    fun _ _ hmem => absurd hmem hsent, fun hmem => absurd hmem hevent⟩

/-- Time passes. -/
theorem Timed.mono (h : Timed spec clock t s) {clock' : ℕ} (hle : clock ≤ clock') :
    Timed spec clock' t s where
  sent_le hmem := ⟨(h.sent_le hmem).1, (h.sent_le hmem).2.trans hle⟩
  sent_lt := h.sent_lt
  event_le := h.event_le
  event_lt := h.event_lt
  deadline := h.deadline
  lost hmem hnone _ hsent := (h.lost hmem hnone hsent).trans hle

/-- What happens is not a send and not an event. -/
theorem Timed.append (h : Timed spec clock t s) {o : List (WaitObs β)}
    (hsent : ∀ {seq time}, .sent seq time ∉ o) (hevent : ∀ {e}, .event e ∉ o) :
    Timed spec clock (t ++ o) s := by
  have hs : ∀ {seq time}, .sent seq time ∈ t ++ o → .sent seq time ∈ t :=
    fun hmem => (List.mem_append.mp hmem).resolve_right hsent
  have he : ∀ {e}, .event e ∈ t ++ o → .event e ∈ t :=
    fun hmem => (List.mem_append.mp hmem).resolve_right hevent
  exact ⟨fun hmem => h.sent_le (hs hmem), fun hpc _ _ hmem => h.sent_lt hpc (hs hmem),
    fun hmem => h.event_le (he hmem), fun hpc _ hmem => h.event_lt hpc (he hmem),
    fun hpc _ hmem => h.deadline hpc (hs hmem), fun hmem hnone _ hsent =>
      h.lost (he hmem) hnone (hs hsent)⟩

theorem Timed.arrived (h : Timed spec clock t s) (b : β) (time : ℕ) :
    Timed spec clock (t ++ [.arrived b time]) s :=
  h.append (by simp) (by simp)

/-- The same run, at a state in which no packet waits. -/
theorem Timed.idle (h : Timed spec clock t s) (hseq : s'.seq = s.seq)
    (hpc : s'.pc.waiting = false) : Timed spec clock t s' := by
  refine ⟨fun hmem => hseq ▸ h.sent_le hmem, fun hunsent => ?_, fun hmem => hseq ▸ h.event_le hmem,
    fun hwait => ?_, fun hrecv => ?_, h.lost⟩
  · cases hs : s'.pc <;> simp [hs, WaitPc.unsent, WaitPc.waiting] at hunsent hpc
  · rw [hpc] at hwait
    cases hwait
  · rw [hrecv] at hpc
    cases hpc

/-- A packet is handed to the transport. -/
theorem Timed.sent (h : Timed spec clock t s) {sendMonoNs : ℕ} (hpc : s.pc = .send sendMonoNs) :
    Timed spec clock (t ++ [.sent s.seq clock]) { s with pc := .measure sendMonoNs } := by
  have hwait : s.pc.waiting = true := by rw [hpc]; rfl
  have he : ∀ {e}, .event e ∈ t ++ [.sent s.seq clock] → .event e ∈ t := by
    intro e hmem
    simpa using hmem
  refine ⟨fun {seq time} hmem => ?_, nofun, fun hmem => h.event_le (he hmem),
    fun _ _ hmem => h.event_lt hwait (he hmem), nofun, fun {e} hmem hnone {time} hsent => ?_⟩
  · rcases List.mem_append.mp hmem with hmem | hmem
    · exact h.sent_le hmem
    · obtain ⟨rfl, rfl⟩ : seq = s.seq ∧ time = clock := by simpa using hmem
      exact ⟨le_rfl, le_rfl⟩
  · have hlt := h.event_lt hwait (he hmem)
    rcases List.mem_append.mp hsent with hsent | hsent
    · exact h.lost (he hmem) hnone hsent
    · have heq : e.seq = s.seq := by simpa using (And.left (by simpa using hsent))
      omega

/-- The packet that was sent is reported, as lost only if its wait is over. -/
theorem Timed.report (h : Timed spec clock t s) {sendMonoNs deadline : ℕ} {measured : Bool}
    {recvMonoNs : Option ℕ} (hpc : s.pc = .recv sendMonoNs measured deadline)
    (hlost : recvMonoNs = none → deadline ≤ clock) :
    Timed spec clock (t ++ [.event (s.report spec sendMonoNs measured recvMonoNs)])
      { s with pc := .head } := by
  have hs : ∀ {seq time}, .sent seq time ∈
      t ++ [.event (s.report spec sendMonoNs measured recvMonoNs)] → .sent seq time ∈ t := by
    intro seq time hmem
    simpa using hmem
  refine ⟨fun hmem => h.sent_le (hs hmem), nofun, fun {e} hmem => ?_, nofun, nofun,
    fun {e} hmem hnone {time} hsent => ?_⟩
  · rcases List.mem_append.mp hmem with hmem | hmem
    · exact h.event_le hmem
    · obtain rfl : e = _ := by simpa using hmem
      exact le_rfl
  · rcases List.mem_append.mp hmem with hmem | hmem
    · exact h.lost hmem hnone (hs hsent)
    · obtain rfl : e = _ := by simpa using hmem
      exact (h.deadline hpc (hs hsent)).trans (hlost hnone)

/-- Each step of the client keeps the times, if packets are reported as lost only when their
wait is over. -/
theorem Timed.step (h : Timed spec clock t s) {o : List (WaitObs β)}
    (he : WaitEffect spec clock s s' o)
    (hlost : ∀ {sendMonoNs measured deadline}, s.pc = .recv sendMonoNs measured deadline →
      ∀ e, .event e ∈ o → e.recvMonoNs = none → deadline ≤ clock) :
    Timed spec clock (t ++ o) s' := by
  cases he with
  | idle _ hseq hpc =>
    rw [List.append_nil]
    exact h.idle hseq hpc
  | decodeFailed _ hseq hpc =>
    exact (h.idle hseq hpc).append (by simp) (by simp)
  | stamp _ hpc _ hseq hpc' =>
    rw [List.append_nil]
    have hlt : s.seq < s'.seq := by omega
    refine ⟨fun hmem => ⟨(h.sent_le hmem).1.trans hlt.le, (h.sent_le hmem).2⟩,
      fun _ _ _ hmem => (h.sent_le hmem).1.trans_lt hlt, fun hmem => (h.event_le hmem).trans hlt.le,
      fun _ _ hmem => (h.event_le hmem).trans_lt hlt, fun hrecv => ?_, h.lost⟩
    cases hpc'.symm.trans hrecv
  | sent sendMonoNs hpc => exact h.sent hpc
  | measured sendMonoNs measured hpc =>
    rw [List.append_nil]
    exact ⟨h.sent_le, nofun, h.event_le, fun _ => h.event_lt (by rw [hpc]; rfl), nofun, h.lost⟩
  | arm sendMonoNs measured hpc =>
    rw [List.append_nil]
    refine ⟨h.sent_le, nofun, h.event_le, fun _ => h.event_lt (by rw [hpc]; rfl),
      fun hrecv time hmem => ?_, h.lost⟩
    have hle := (h.sent_le hmem).2
    simp only [WaitPc.recv.injEq] at hrecv
    omega
  | report sendMonoNs measured deadline recvMonoNs hpc =>
    exact h.report hpc fun hnone => hlost hpc _ List.mem_cons_self hnone

/-! ## Losses that are real -/

/-- While things only arrive, nothing is reported. -/
theorem lossIsReal_of_arrived {timeout : ℕ} {echo : ℕ → β → Prop}
    (ht : ∀ o ∈ t, ∃ b time, o = .arrived b time) : LossIsReal timeout echo t := by
  intro e he
  obtain ⟨_, _, h⟩ := ht _ he
  cases h

variable {echo : ℕ → β → Prop}

/-- Whatever arrives now is too late for the packets that were reported as lost. -/
theorem LossIsReal.arrived (hreal : LossIsReal spec.timeout echo t) (h : Timed spec clock t s)
    (b : β) : LossIsReal spec.timeout echo (t ++ [.arrived b clock]) := by
  intro e he hnone sentAt hsent b' time harr hecho
  have he : .event e ∈ t := by simpa using he
  have hsent : .sent e.seq sentAt ∈ t := by simpa using hsent
  rcases List.mem_append.mp harr with harr | harr
  · exact hreal e he hnone sentAt hsent b' time harr hecho
  · obtain ⟨-, htime⟩ : b' = b ∧ time = clock := by simpa using harr
    rw [htime]
    exact h.lost he hnone hsent

/-- A step of the client keeps losses real, if no echo has arrived of a packet that it reports
as lost. -/
theorem LossIsReal.step (hreal : LossIsReal spec.timeout echo t) (h : Timed spec clock t s)
    {o : List (WaitObs β)} (he : WaitEffect spec clock s s' o)
    (hlost : ∀ e, .event e ∈ o → e.recvMonoNs = none →
      ∀ b time, .arrived b time ∈ t → ¬echo e.seq b) :
    LossIsReal spec.timeout echo (t ++ o) := by
  cases he with
  | idle _ _ _ | stamp _ _ _ _ _ | measured _ _ _ | arm _ _ _ =>
    rw [List.append_nil]
    exact hreal
  | decodeFailed _ _ _ =>
    intro e he hnone sentAt hsent b time harr hecho
    exact hreal e (by simpa using he) hnone sentAt (by simpa using hsent) b time
      (by simpa using harr) hecho
  | sent sendMonoNs hpc =>
    intro e he hnone sentAt hsent b time harr hecho
    have he : .event e ∈ t := by simpa using he
    have hlt := h.event_lt (by rw [hpc]; rfl) he
    have hsent : .sent e.seq sentAt ∈ t := by
      rcases List.mem_append.mp hsent with hsent | hsent
      · exact hsent
      · have heq : e.seq = s.seq := by simpa using (And.left (by simpa using hsent))
        omega
    exact hreal e he hnone sentAt hsent b time (by simpa using harr) hecho
  | report sendMonoNs measured deadline recvMonoNs hpc =>
    intro e he hnone sentAt hsent b time harr hecho
    have hsent : .sent e.seq sentAt ∈ t := by simpa using hsent
    have harr : .arrived b time ∈ t := by simpa using harr
    rcases List.mem_append.mp he with he | he
    · exact hreal e he hnone sentAt hsent b time harr hecho
    · exact absurd hecho (hlost e he hnone b time harr)

end Timed

/-! ## The order of a run -/

/-- The event that is shown. -/
def WaitObs.event? {β : Type} : WaitObs β → Option PacketEvent
  | .event e => some e
  | _ => none

/-- The events of a run. -/
def waitEvents {β : Type} (t : List (WaitObs β)) : List PacketEvent :=
  t.filterMap WaitObs.event?

theorem waitEvents_append {β : Type} (t t' : List (WaitObs β)) :
    waitEvents (t ++ t') = waitEvents t ++ waitEvents t' :=
  List.filterMap_append

/-- The packet was handed to the transport and is not reported. -/
def WaitPc.inFlight : WaitPc → Bool
  | .measure _ | .arm _ _ | .recv _ _ _ => true
  | _ => false

/-- Packets are reported in order, and the one that waits was sent. -/
structure InTurn {β : Type} (spec : StreamRunSpec) (t : List (WaitObs β)) (s : WaitState) :
    Prop where
  sent : s.pc.inFlight = true → ∃ time, .sent s.seq time ∈ t
  le : ∀ e ∈ waitEvents t, e.seq ≤ s.seq
  lt : s.pc.waiting = true → ∀ e ∈ waitEvents t, e.seq < s.seq
  sorted : (waitEvents t).Pairwise fun e e' => e.seq < e'.seq
  streamId : ∀ e ∈ waitEvents t, e.streamId = spec.streamId

section InTurn

variable {β : Type} {spec : StreamRunSpec} {now : ℕ} {t : List (WaitObs β)} {s s' : WaitState}

theorem inTurn_init (spec : StreamRunSpec) (clock : ℕ) :
    InTurn (β := β) spec [] ⟨clock, .begin, 0, 0⟩ where
  sent := nofun
  le := nofun
  lt := nofun
  sorted := .nil
  streamId := nofun

/-- Nothing is sent or reported. -/
theorem InTurn.append (h : InTurn spec t s) {o : List (WaitObs β)} (ho : waitEvents o = []) :
    InTurn spec (t ++ o) s := by
  have hevents : waitEvents (t ++ o) = waitEvents t := by
    rw [waitEvents_append, ho, List.append_nil]
  refine ⟨fun hpc => ?_, by rw [hevents]; exact h.le, by rw [hevents]; exact h.lt,
    by rw [hevents]; exact h.sorted, by rw [hevents]; exact h.streamId⟩
  obtain ⟨time, hmem⟩ := h.sent hpc
  exact ⟨time, List.mem_append_left _ hmem⟩

/-- No packet waits. -/
theorem InTurn.idle (h : InTurn spec t s) (hseq : s'.seq = s.seq) (hpc : s'.pc.waiting = false) :
    InTurn spec t s' := by
  refine ⟨fun hflight => ?_, hseq ▸ h.le, fun hwait => ?_, h.sorted, h.streamId⟩
  · cases hs : s'.pc <;> simp [hs, WaitPc.inFlight, WaitPc.waiting] at hflight hpc
  · rw [hpc] at hwait
    cases hwait

/-- The packet that was sent is reported. -/
theorem InTurn.report (h : InTurn spec t s) {sendMonoNs deadline : ℕ} {measured : Bool}
    (hpc : s.pc = .recv sendMonoNs measured deadline) (recvMonoNs : Option ℕ) :
    InTurn spec (t ++ [.event (s.report spec sendMonoNs measured recvMonoNs)])
      { s with pc := .head } := by
  have hlt := h.lt (by rw [hpc]; rfl)
  have hevents : waitEvents (t ++ [.event (s.report spec sendMonoNs measured recvMonoNs)]) =
      waitEvents t ++ [s.report spec sendMonoNs measured recvMonoNs] :=
    waitEvents_append _ _
  refine ⟨nofun, fun e he => ?_, nofun, ?_, fun e he => ?_⟩
  · rw [hevents] at he
    rcases List.mem_append.mp he with hold | hnew
    · exact h.le e hold
    · rw [List.mem_singleton.mp hnew]
      exact le_rfl
  · rw [hevents]
    refine List.pairwise_append.mpr ⟨h.sorted, List.pairwise_singleton _ _, fun e he e' he' => ?_⟩
    rw [List.mem_singleton.mp he']
    exact hlt e he
  · rw [hevents] at he
    rcases List.mem_append.mp he with hold | hnew
    · exact h.streamId e hold
    · rw [List.mem_singleton.mp hnew]
      rfl

theorem InTurn.step (h : InTurn spec t s) {o : List (WaitObs β)} (he : WaitEffect spec now s s' o) :
    InTurn spec (t ++ o) s' := by
  cases he with
  | idle _ hseq hpc =>
    rw [List.append_nil]
    exact h.idle hseq hpc
  | decodeFailed _ hseq hpc => exact (h.idle hseq hpc).append rfl
  | stamp _ hpc hlt hseq hpc' =>
    rw [List.append_nil]
    refine ⟨fun hflight => ?_, fun e he => ?_, fun _ e he => ?_, h.sorted, h.streamId⟩
    · rw [hpc'] at hflight
      cases hflight
    · exact (h.le e he).trans (by omega)
    · exact (h.le e he).trans_lt (by omega)
  | sent sendMonoNs hpc =>
    have happend := h.append (o := [.sent s.seq now]) rfl
    exact ⟨fun _ => ⟨now, List.mem_append_right _ List.mem_cons_self⟩, happend.le,
      fun _ => happend.lt (by rw [hpc]; rfl), happend.sorted, happend.streamId⟩
  | measured sendMonoNs measured hpc =>
    rw [List.append_nil]
    exact ⟨fun _ => h.sent (by rw [hpc]; rfl), h.le, fun _ => h.lt (by rw [hpc]; rfl), h.sorted,
      h.streamId⟩
  | arm sendMonoNs measured hpc =>
    rw [List.append_nil]
    exact ⟨fun _ => h.sent (by rw [hpc]; rfl), h.le, fun _ => h.lt (by rw [hpc]; rfl), h.sorted,
      h.streamId⟩
  | report sendMonoNs measured deadline recvMonoNs hpc => exact h.report hpc recvMonoNs

/-- A step of the loop that has nothing to do with the transport. -/
theorem InTurn.tick (h : InTurn spec t s) (htick : waitTick spec s now = some s') :
    InTurn spec t s' := by
  have hstep := h.step (waitTick_effect htick)
  rwa [List.append_nil] at hstep

end InTurn

end Ipfusch
