import Ipfusch.QuicSystem
import Mathlib.Data.List.Induction

/-!
# The packets of stop and wait

`WaitInvariant` is the induction rule for the loop that `run_stream_udp` and `run_stream_quic`
share : a property of the clock, the trace and the variables that each of its steps keeps holds of
every run, of the client and whatever it talks to.

`WaitLog` is what all runs have in common. Packets are numbered from one and sent in order, each is
reported once and before the next one is sent, and the one that waits is the last one. A packet
that was sent after the warm-up is measured. Of the measured ones at most the first was sent
before, and of all packets at most the last one after the end.
-/

namespace Ipfusch

/-! ## Packets -/

/-- The packet that is sent. -/
def WaitObs.sent? {β : Type} : WaitObs β → Option (ℕ × ℕ)
  | .sent seq time => some (seq, time)
  | _ => none

/-- The packets of a run, with the times at which they were sent. -/
def sentPackets {β : Type} (t : List (WaitObs β)) : List (ℕ × ℕ) :=
  t.filterMap WaitObs.sent?

/-- The packets that were reported, each with its event. -/
def packetLog {β : Type} (t : List (WaitObs β)) : List ((ℕ × ℕ) × PacketEvent) :=
  (sentPackets t).zip (waitEvents t)

/-- The event of a packet that was sent. -/
structure Reported (spec : StreamRunSpec) (start : ℕ) (p : ℕ × ℕ) (e : PacketEvent) : Prop where
  streamId : e.streamId = spec.streamId
  seq : e.seq = p.1
  bytes : e.bytes = spec.payloadBytes.toNat
  stamped : e.sendMonoNs ≤ p.2
  received : ∀ r ∈ e.recvMonoNs, p.2 ≤ r
  measured : start + spec.warmup ≤ p.2 → e.measured = true

section Packets

variable {β : Type}

theorem sentPackets_append (t o : List (WaitObs β)) :
    sentPackets (t ++ o) = sentPackets t ++ sentPackets o :=
  List.filterMap_append

/-- Nothing is sent or reported. -/
theorem packetLog_append_quiet (t : List (WaitObs β)) {o : List (WaitObs β)}
    (hsent : sentPackets o = []) (hevents : waitEvents o = []) :
    sentPackets (t ++ o) = sentPackets t ∧ waitEvents (t ++ o) = waitEvents t ∧
      packetLog (t ++ o) = packetLog t := by
  have hs : sentPackets (t ++ o) = sentPackets t := by
    rw [sentPackets_append, hsent, List.append_nil]
  have he : waitEvents (t ++ o) = waitEvents t := by
    rw [waitEvents_append, hevents, List.append_nil]
  exact ⟨hs, he, by rw [packetLog, hs, he]; rfl⟩

/-- A packet is sent after all others were reported. -/
theorem packetLog_append_sent {t : List (WaitObs β)}
    (hall : (sentPackets t).length = (waitEvents t).length) (seq time : ℕ) :
    packetLog (t ++ [.sent seq time]) = packetLog t := by
  have hs : sentPackets (t ++ [.sent seq time]) = sentPackets t ++ [(seq, time)] :=
    sentPackets_append t _
  have he : waitEvents (t ++ [.sent seq time]) = waitEvents t ++ [] := waitEvents_append t _
  rw [packetLog, hs, he, List.zip_append hall, List.zip_nil_right, List.append_nil]
  rfl

/-- The last packet is reported. -/
theorem packetLog_append_event {t : List (WaitObs β)} {before : List (ℕ × ℕ)} {p : ℕ × ℕ}
    (hsent : sentPackets t = before ++ [p]) (hbefore : before.length = (waitEvents t).length)
    (e : PacketEvent) : packetLog (t ++ [.event e]) = packetLog t ++ [(p, e)] := by
  have hs : sentPackets (t ++ [.event e]) = before ++ [p] := by
    rw [sentPackets_append, hsent]
    exact List.append_nil _
  have he : waitEvents (t ++ [.event e]) = waitEvents t ++ [e] := waitEvents_append t _
  have hlog : packetLog t = before.zip (waitEvents t) := by
    have hzip : (before ++ [p]).zip (waitEvents t ++ []) = before.zip (waitEvents t) ++ [] :=
      List.zip_append hbefore
    rwa [List.append_nil, List.append_nil, ← hsent] at hzip
  rw [packetLog, hs, he, List.zip_append hbefore, hlog]
  rfl

end Packets

/-! ## The rule -/

/-- A step that has nothing to do with the transport keeps the start. -/
theorem waitTick_start {spec : StreamRunSpec} {w w' : WaitState} {now : ℕ}
    (h : waitTick spec w now = some w') : w'.start = w.start := by
  unfold waitTick at h
  dsimp only at h
  cases hpc : w.pc with
  | begin | measure _ | arm _ _ =>
    simp only [hpc, Option.some.injEq] at h
    rw [← h]
  | head | paceSleep _ | stamp =>
    simp only [hpc] at h
    split_ifs at h <;> obtain rfl := Option.some.inj h <;> rfl
  | pace =>
    simp only [hpc] at h
    split at h
    · obtain rfl := Option.some.inj h
      rfl
    · split_ifs at h <;> obtain rfl := Option.some.inj h <;> rfl
  | send _ | recv _ _ _ | done | failed | panicked => simp only [hpc, reduceCtorEq] at h

/-- A property of the clock, the trace and the variables of the loop that each step keeps. -/
structure WaitInvariant {β : Type} (spec : StreamRunSpec)
    (P : ℕ → List (WaitObs β) → WaitState → Prop) : Prop where
  start : ∀ clock, P clock [] ⟨clock, .begin, 0, 0⟩
  wait : ∀ {clock clock' t w}, P clock t w → clock ≤ clock' → P clock' t w
  arrived : ∀ {clock t w}, P clock t w → ∀ b time, P clock (t ++ [.arrived b time]) w
  tick : ∀ {clock t w w'}, P clock t w → waitTick spec w clock = some w' → P clock t w'
  sent : ∀ {clock t w sendMonoNs}, P clock t w → w.pc = .send sendMonoNs →
    P clock (t ++ [.sent w.seq clock]) { w with pc := .measure sendMonoNs }
  sendFails : ∀ {clock t w sendMonoNs}, P clock t w → w.pc = .send sendMonoNs →
    P clock t { w with pc := .failed }
  report : ∀ {clock t w sendMonoNs measured deadline recvMonoNs}, P clock t w →
    w.pc = .recv sendMonoNs measured deadline → (∀ r ∈ recvMonoNs, r = clock) →
    P clock (t ++ [.event (w.report spec sendMonoNs measured recvMonoNs)]) { w with pc := .head }
  decodeFailed : ∀ {clock t w sendMonoNs measured deadline}, P clock t w →
    w.pc = .recv sendMonoNs measured deadline →
    P clock (t ++ [.decodeFailed w.seq]) { w with pc := .failed }

namespace WaitInvariant

variable {β : Type} {spec : StreamRunSpec} {P : ℕ → List (WaitObs β) → WaitState → Prop}
  {clock : ℕ} {t o : List (WaitObs β)} {w w' : WaitState}

theorem and {Q : ℕ → List (WaitObs β) → WaitState → Prop} (h : WaitInvariant spec P)
    (hQ : WaitInvariant spec Q) :
    WaitInvariant spec fun clock t w => P clock t w ∧ Q clock t w where
  start clock := ⟨h.start clock, hQ.start clock⟩
  wait hw hle := ⟨h.wait hw.1 hle, hQ.wait hw.2 hle⟩
  arrived hw b time := ⟨h.arrived hw.1 b time, hQ.arrived hw.2 b time⟩
  tick hw htick := ⟨h.tick hw.1 htick, hQ.tick hw.2 htick⟩
  sent hw hpc := ⟨h.sent hw.1 hpc, hQ.sent hw.2 hpc⟩
  sendFails hw hpc := ⟨h.sendFails hw.1 hpc, hQ.sendFails hw.2 hpc⟩
  report hw hpc hrecv := ⟨h.report hw.1 hpc hrecv, hQ.report hw.2 hpc hrecv⟩
  decodeFailed hw hpc := ⟨h.decodeFailed hw.1 hpc, hQ.decodeFailed hw.2 hpc⟩

/-- A header that was read ends the wait. -/
theorem onHeader (h : WaitInvariant spec P) {sendMonoNs deadline : ℕ} {measured : Bool}
    (hw : P clock t w) (hpc : w.pc = .recv sendMonoNs measured deadline) (ack : List UInt8) :
    P clock (t ++ (Ipfusch.onHeader spec w sendMonoNs measured ack clock).2)
      (Ipfusch.onHeader (β := β) spec w sendMonoNs measured ack clock).1 := by
  unfold Ipfusch.onHeader
  cases DataHeader.decode ack with
  | error e => exact h.decodeFailed hw hpc
  | ok header =>
    refine h.report hw hpc fun r hr => ?_
    split_ifs at hr with hseq
    · exact (Option.some.inj hr).symm
    · cases hr

/-- Before the loop, things only arrive. -/
theorem of_arrived (h : WaitInvariant spec P) (clock : ℕ)
    (ht : ∀ o ∈ t, ∃ b time, o = .arrived b time) : P clock t ⟨clock, .begin, 0, 0⟩ := by
  induction t using List.reverseRecOn with
  | nil => exact h.start clock
  | append_singleton t o ih =>
    obtain ⟨b, time, rfl⟩ := ht o (List.mem_append_right _ List.mem_cons_self)
    exact h.arrived (ih fun o' ho' => ht o' (List.mem_append_left _ ho')) b time

end WaitInvariant

/-! ## The log -/

/-- Where the loop is, in terms of what was sent and reported. -/
def WaitPlace {β : Type} (spec : StreamRunSpec) (clock : ℕ) (t : List (WaitObs β))
    (w : WaitState) : Prop :=
  let measureStart := w.start + spec.warmup
  let endsAt := w.start + spec.warmup + spec.duration
  let idle := (sentPackets t).length = (waitEvents t).length ∧ (sentPackets t).length = w.seq
  let flight (sendMonoNs : ℕ) (measured : Option Bool) := ∃ before time,
    sentPackets t = before ++ [(w.seq, time)] ∧ before.length = (waitEvents t).length ∧
      sendMonoNs ≤ time ∧ (∀ x ∈ packetLog t, x.2.measured = true → measureStart ≤ time) ∧
      ∀ b ∈ measured, (measureStart ≤ time → b = true) ∧ (b = true → measureStart ≤ clock)
  match w.pc with
  | .begin | .head | .panicked => idle
  | .pace | .paceSleep _ | .stamp => idle ∧ ∀ p ∈ sentPackets t, p.2 < endsAt
  | .send sendMonoNs => (sentPackets t).length = (waitEvents t).length ∧
      (sentPackets t).length + 1 = w.seq ∧ (∀ p ∈ sentPackets t, p.2 < endsAt) ∧ sendMonoNs ≤ clock
  | .measure sendMonoNs => flight sendMonoNs none
  | .arm sendMonoNs measured | .recv sendMonoNs measured _ => flight sendMonoNs (some measured)
  | .done => idle ∧ endsAt ≤ clock
  | .failed => True

/-- What the packets and the events of a run have to do with each other. -/
structure WaitLog {β : Type} (spec : StreamRunSpec) (clock : ℕ) (t : List (WaitObs β))
    (w : WaitState) : Prop where
  seqs : (sentPackets t).map Prod.fst = List.range' 1 (sentPackets t).length
  sorted : (sentPackets t).Pairwise fun p q => p.2 ≤ q.2
  sent_le : ∀ p ∈ sentPackets t, p.2 ≤ clock
  length_le : (waitEvents t).length ≤ (sentPackets t).length
  reported : ∀ x ∈ packetLog t, Reported spec w.start x.1 x.2
  measured_le : ∀ x ∈ packetLog t, x.2.measured = true → w.start + spec.warmup ≤ clock
  /-- After a measured packet, all are sent after the warm-up. -/
  warm : (packetLog t).Pairwise fun x y => x.2.measured = true → w.start + spec.warmup ≤ y.1.2
  /-- Before the last packet, all are sent before the end. -/
  inTime : (sentPackets t).Pairwise fun p _ => p.2 < w.start + spec.warmup + spec.duration
  place : WaitPlace spec clock t w

section Log

variable {β : Type} {spec : StreamRunSpec} {clock : ℕ} {t o : List (WaitObs β)} {w w' : WaitState}

/-- What is neither sent nor reported changes nothing. -/
theorem WaitLog.quiet (h : WaitLog spec clock t w) (hsent : sentPackets o = [])
    (hevents : waitEvents o = []) : WaitLog spec clock (t ++ o) w := by
  obtain ⟨hs, he, hlog⟩ := packetLog_append_quiet t hsent hevents
  have hplace := h.place
  unfold WaitPlace at hplace
  refine ⟨by rw [hs]; exact h.seqs, by rw [hs]; exact h.sorted, by rw [hs]; exact h.sent_le,
    by rw [hs, he]; exact h.length_le, by rw [hlog]; exact h.reported,
    by rw [hlog]; exact h.measured_le, by rw [hlog]; exact h.warm, by rw [hs]; exact h.inTime, ?_⟩
  unfold WaitPlace
  rw [hs, he, hlog]
  exact hplace

/-- The loop goes on, and nothing is shown. -/
theorem WaitLog.move (h : WaitLog spec clock t w) (hstart : w'.start = w.start)
    (hplace : WaitPlace spec clock t w') : WaitLog spec clock t w' := by
  refine ⟨h.seqs, h.sorted, h.sent_le, h.length_le, ?_, ?_, ?_, ?_, hplace⟩ <;> rw [hstart]
  · exact h.reported
  · exact h.measured_le
  · exact h.warm
  · exact h.inTime

theorem WaitLog.wait (h : WaitLog spec clock t w) {clock' : ℕ} (hle : clock ≤ clock') :
    WaitLog spec clock' t w := by
  refine ⟨h.seqs, h.sorted, fun p hp => (h.sent_le p hp).trans hle, h.length_le, h.reported,
    fun x hx hm => (h.measured_le x hx hm).trans hle, h.warm, h.inTime, ?_⟩
  have hplace := h.place
  unfold WaitPlace at hplace ⊢
  cases hpc : w.pc with
  | begin | head | pace | paceSleep _ | stamp | failed | panicked =>
    rw [hpc] at hplace
    exact hplace
  | send m =>
    rw [hpc] at hplace
    exact ⟨hplace.1, hplace.2.1, hplace.2.2.1, hplace.2.2.2.trans hle⟩
  | measure m =>
    rw [hpc] at hplace
    obtain ⟨before, time, hsent, hlen, hm, hwarm, -⟩ := hplace
    exact ⟨before, time, hsent, hlen, hm, hwarm, nofun⟩
  | arm m b | recv m b _ =>
    rw [hpc] at hplace
    obtain ⟨before, time, hsent, hlen, hm, hwarm, hb⟩ := hplace
    exact ⟨before, time, hsent, hlen, hm, hwarm, fun b' hb' =>
      ⟨(hb b' hb').1, fun hmeasured => ((hb b' hb').2 hmeasured).trans hle⟩⟩
  | done =>
    rw [hpc] at hplace
    exact ⟨hplace.1, hplace.2.trans hle⟩

/-- A step of the loop that has nothing to do with the transport. -/
theorem WaitLog.tick (h : WaitLog spec clock t w) (htick : waitTick spec w clock = some w') :
    WaitLog spec clock t w' := by
  have hplace := h.place
  unfold WaitPlace at hplace
  unfold waitTick at htick
  dsimp only at htick
  cases hpc : w.pc with
  | begin =>
    rw [hpc] at hplace
    simp only [hpc, Option.some.injEq] at htick
    subst htick
    exact h.move rfl hplace
  | head =>
    rw [hpc] at hplace
    simp only [hpc] at htick
    split_ifs at htick with hlt <;> obtain rfl := Option.some.inj htick
    · exact h.move rfl ⟨hplace, fun p hp => (h.sent_le p hp).trans_lt hlt⟩
    · exact h.move rfl ⟨hplace, not_lt.mp hlt⟩
  | pace =>
    rw [hpc] at hplace
    simp only [hpc] at htick
    cases hdelay : pacingDelay spec.payloadBytes spec.rateBps with
    | none =>
      simp only [hdelay, Option.some.injEq] at htick
      subst htick
      exact h.move rfl hplace
    | some delay =>
      simp only [hdelay] at htick
      split_ifs at htick <;> obtain rfl := Option.some.inj htick <;> exact h.move rfl hplace
  | paceSleep delay =>
    rw [hpc] at hplace
    simp only [hpc] at htick
    split_ifs at htick
    obtain rfl := Option.some.inj htick
    exact h.move rfl hplace
  | stamp =>
    rw [hpc] at hplace
    obtain ⟨⟨hall, hseq⟩, htime⟩ := hplace
    simp only [hpc] at htick
    split_ifs at htick <;> obtain rfl := Option.some.inj htick
    · exact h.move rfl ⟨hall, congrArg (· + 1) hseq, htime, le_rfl⟩
    · exact h.move rfl ⟨hall, hseq⟩
  | measure m =>
    rw [hpc] at hplace
    obtain ⟨before, time, hsent, hlen, hm, hwarm, -⟩ := hplace
    simp only [hpc, Option.some.injEq] at htick
    subst htick
    have hle : time ≤ clock := h.sent_le (w.seq, time) (by rw [hsent]; simp)
    refine h.move rfl ⟨before, time, hsent, hlen, hm, hwarm, fun b hb => ?_⟩
    obtain rfl := Option.some.inj hb
    exact ⟨fun hwarm => decide_eq_true (hwarm.trans hle), of_decide_eq_true⟩
  | arm m b =>
    rw [hpc] at hplace
    simp only [hpc, Option.some.injEq] at htick
    subst htick
    exact h.move rfl hplace
  | send _ | recv _ _ _ | done | failed | panicked =>
    simp only [hpc, reduceCtorEq] at htick

/-- A packet is handed to the transport. -/
theorem WaitLog.sent (h : WaitLog spec clock t w) {sendMonoNs : ℕ} (hpc : w.pc = .send sendMonoNs) :
    WaitLog spec clock (t ++ [.sent w.seq clock]) { w with pc := .measure sendMonoNs } := by
  have hplace := h.place
  unfold WaitPlace at hplace
  rw [hpc] at hplace
  obtain ⟨hall, hseq, htime, hstamp⟩ := hplace
  have hs : sentPackets (t ++ [.sent w.seq clock]) = sentPackets t ++ [(w.seq, clock)] :=
    sentPackets_append t _
  have he : waitEvents (t ++ [.sent w.seq clock]) = waitEvents t :=
    (waitEvents_append t _).trans (List.append_nil _)
  have hlog := packetLog_append_sent hall w.seq clock
  refine ⟨?_, ?_, ?_, ?_, by rw [hlog]; exact h.reported, by rw [hlog]; exact h.measured_le,
    by rw [hlog]; exact h.warm, ?_, ?_⟩
  · rw [hs, List.map_append, h.seqs, List.length_append, List.length_singleton, List.range'_concat,
      ← hseq, Nat.one_mul, Nat.add_comm 1]
    rfl
  · rw [hs]
    refine List.pairwise_append.mpr ⟨h.sorted, List.pairwise_singleton _ _, fun p hp q hq => ?_⟩
    rw [List.mem_singleton.mp hq]
    exact h.sent_le p hp
  · rw [hs]
    intro p hp
    rcases List.mem_append.mp hp with hp | hp
    · exact h.sent_le p hp
    · rw [List.mem_singleton.mp hp]
  · rw [hs, he, List.length_append]
    exact h.length_le.trans (Nat.le_add_right _ _)
  · rw [hs]
    exact List.pairwise_append.mpr
      ⟨h.inTime, List.pairwise_singleton _ _, fun p hp _ _ => htime p hp⟩
  · refine ⟨sentPackets t, clock, hs, by rw [he, hall], hstamp, ?_, nofun⟩
    rw [hlog]
    exact h.measured_le

/-- The packet that waits is the last one. -/
theorem WaitLog.length_eq (h : WaitLog spec clock t w) {before : List (ℕ × ℕ)} {time : ℕ}
    (hsent : sentPackets t = before ++ [(w.seq, time)]) : (sentPackets t).length = w.seq := by
  have hseqs := h.seqs
  rw [hsent, List.map_append, List.length_append, List.length_singleton, List.range'_concat] at hseqs
  have hlast : w.seq = 1 + 1 * before.length :=
    (List.cons.inj (List.append_inj' hseqs rfl).2).1
  rw [hsent, List.length_append, List.length_singleton, hlast]
  omega

/-- No packet has a number greater than that of the one that waits. -/
theorem WaitLog.seq_le (h : WaitLog spec clock t w) {sendMonoNs deadline : ℕ} {measured : Bool}
    (hpc : w.pc = .recv sendMonoNs measured deadline) {p : ℕ × ℕ} (hp : p ∈ sentPackets t) :
    p.1 ≤ w.seq := by
  have hplace := h.place
  unfold WaitPlace at hplace
  rw [hpc] at hplace
  obtain ⟨before, time, hsent, -⟩ := hplace
  have hmem := List.mem_map_of_mem (f := Prod.fst) hp
  rw [h.seqs, List.mem_range'_1, h.length_eq hsent] at hmem
  omega

/-- The packet that waits is reported. -/
theorem WaitLog.report (h : WaitLog spec clock t w) {sendMonoNs deadline : ℕ} {measured : Bool}
    {recvMonoNs : Option ℕ} (hpc : w.pc = .recv sendMonoNs measured deadline)
    (hrecv : ∀ r ∈ recvMonoNs, r = clock) :
    WaitLog spec clock (t ++ [.event (w.report spec sendMonoNs measured recvMonoNs)])
      { w with pc := .head } := by
  have hplace := h.place
  unfold WaitPlace at hplace
  rw [hpc] at hplace
  obtain ⟨before, time, hsent, hlen, hstamp, hwarm, hmeasured⟩ := hplace
  obtain ⟨hflag, hbegun⟩ := hmeasured measured rfl
  have hle : time ≤ clock := h.sent_le (w.seq, time) (by rw [hsent]; simp)
  have hs : sentPackets (t ++ [.event (w.report spec sendMonoNs measured recvMonoNs)]) =
      sentPackets t := (sentPackets_append t _).trans (List.append_nil _)
  have he : waitEvents (t ++ [.event (w.report spec sendMonoNs measured recvMonoNs)]) =
      waitEvents t ++ [w.report spec sendMonoNs measured recvMonoNs] := waitEvents_append t _
  have hlog := packetLog_append_event hsent hlen (w.report spec sendMonoNs measured recvMonoNs)
  have hlast := h.length_eq hsent
  have hall : (waitEvents t ++ [w.report spec sendMonoNs measured recvMonoNs]).length =
      (sentPackets t).length := by
    rw [hsent, List.length_append, List.length_append, hlen]
    rfl
  refine ⟨by rw [hs]; exact h.seqs, by rw [hs]; exact h.sorted, by rw [hs]; exact h.sent_le,
    by rw [hs, he]; exact hall.le, ?_, ?_, ?_, by rw [hs]; exact h.inTime, ?_⟩
  · rw [hlog]
    intro x hx
    rcases List.mem_append.mp hx with hx | hx
    · exact h.reported x hx
    · rw [List.mem_singleton.mp hx]
      exact ⟨rfl, rfl, rfl, hstamp, fun r hr => hrecv r hr ▸ hle, hflag⟩
  · rw [hlog]
    intro x hx hm
    rcases List.mem_append.mp hx with hx | hx
    · exact h.measured_le x hx hm
    · rw [List.mem_singleton.mp hx] at hm
      exact hbegun hm
  · rw [hlog]
    refine List.pairwise_append.mpr ⟨h.warm, List.pairwise_singleton _ _, fun x hx y hy => ?_⟩
    rw [List.mem_singleton.mp hy]
    exact hwarm x hx
  · refine ⟨?_, by rw [hs]; exact hlast⟩
    rw [hs, he]
    exact hall.symm

/-- Each event is that of a packet. -/
theorem WaitLog.reported_of_event (h : WaitLog spec clock t w) {e : PacketEvent}
    (he : e ∈ waitEvents t) : ∃ p ∈ sentPackets t, Reported spec w.start p e := by
  have hsnd : (packetLog t).map Prod.snd = waitEvents t := List.map_snd_zip h.length_le
  rw [← hsnd] at he
  obtain ⟨x, hx, rfl⟩ := List.mem_map.mp he
  exact ⟨x.1, (List.of_mem_zip hx).1, h.reported x hx⟩

/-- Each step keeps the log. -/
theorem waitLog (spec : StreamRunSpec) : WaitInvariant (β := β) spec (WaitLog spec) where
  start _ := ⟨rfl, .nil, nofun, le_rfl, nofun, nofun, .nil, .nil, rfl, rfl⟩
  wait h hle := h.wait hle
  arrived h _ _ := h.quiet rfl rfl
  tick h htick := h.tick htick
  sent h hpc := h.sent hpc
  sendFails h _ := h.move rfl trivial
  report h hpc hrecv := h.report hpc hrecv
  decodeFailed h _ := (h.quiet rfl rfl).move rfl trivial

/-- The number of a packet fits into its header. -/
theorem waitSeq_lt (spec : StreamRunSpec) :
    WaitInvariant (β := β) spec fun _ _ w => w.seq < 2 ^ 64 where
  start _ := Nat.two_pow_pos 64
  wait h _ := h
  arrived h _ _ := h
  tick {clock t w w'} h htick := by
    cases waitTick_effect (β := β) htick with
    | idle _ hseq _ => exact hseq ▸ h
    | stamp _ _ hlt hseq _ => exact hseq ▸ hlt
    | measured _ _ _ | arm _ _ _ => exact h
  sent h _ := h
  sendFails h _ := h
  report h _ _ := h
  decodeFailed h _ := h

/-! ## When the loop was left -/

/-- Each packet has its event. -/
theorem WaitLog.done (h : WaitLog spec clock t w) (hpc : w.pc = .done) :
    (packetLog t).map Prod.fst = sentPackets t ∧ (packetLog t).map Prod.snd = waitEvents t := by
  have hplace := h.place
  unfold WaitPlace at hplace
  rw [hpc] at hplace
  exact ⟨List.map_fst_zip hplace.1.1.le, List.map_snd_zip hplace.1.1.ge⟩

/-- The packets that were sent between the end of the warm-up and the end. -/
def windowPackets (spec : StreamRunSpec) (start : ℕ) (packets : List (ℕ × ℕ)) : List (ℕ × ℕ) :=
  packets.filter fun p =>
    start + spec.warmup ≤ p.2 ∧ p.2 < start + spec.warmup + spec.duration

theorem countP_le_one {α : Type} {q : α → Bool} {l : List α}
    (h : l.Pairwise fun x y => q x = true → q y = false) : l.countP q ≤ 1 := by
  induction h with
  | nil => exact Nat.zero_le 1
  | @cons x l hx _ ih =>
    rw [List.countP_cons]
    split_ifs with hq
    · have hzero : l.countP q = 0 := List.countP_eq_zero.mpr fun y hy => by simp [hx y hy hq]
      rw [hzero]
    · exact ih

/-- What has `p` has `p'`, or one of two other properties. -/
theorem countP_le_add {α : Type} {p p' q r : α → Bool} {l : List α}
    (h : ∀ x ∈ l, p x = true → ¬p' x = true → q x = true ∨ r x = true) :
    l.countP p ≤ l.countP p' + (l.countP q + l.countP r) := by
  induction l with
  | nil => exact Nat.zero_le _
  | cons x l ih =>
    have ih := ih fun y hy => h y (List.mem_cons_of_mem x hy)
    have hx := h x List.mem_cons_self
    simp only [List.countP_cons]
    by_cases hp : p x = true
    · by_cases hp' : p' x = true
      · rw [if_pos hp, if_pos hp']
        omega
      · rcases hx hp hp' with hq | hr
        · rw [if_pos hp, if_pos hq]
          omega
        · rw [if_pos hp, if_pos hr]
          omega
    · rw [if_neg hp]
      omega

/-- The measured packets are those of the window, and at most two more : the first one, sent before
the warm-up was over, and the last one, sent after the end. -/
theorem WaitLog.window (h : WaitLog spec clock t w) (hpc : w.pc = .done) :
    (windowPackets spec w.start (sentPackets t)).length ≤
        ((waitEvents t).filter PacketEvent.measured).length ∧
      ((waitEvents t).filter PacketEvent.measured).length ≤
        (windowPackets spec w.start (sentPackets t)).length + 2 := by
  obtain ⟨hsent, hevents⟩ := h.done hpc
  have hearly : (packetLog t).countP
      (fun x => x.2.measured && decide (x.1.2 < w.start + spec.warmup)) ≤ 1 := by
    refine countP_le_one (h.warm.imp fun {x y} hxy hx => ?_)
    have hle := hxy (Bool.and_eq_true_iff.mp hx).1
    rw [decide_eq_false hle.not_gt, Bool.and_false]
  have hlate : (packetLog t).countP
      (fun x => decide (w.start + spec.warmup + spec.duration ≤ x.1.2)) ≤ 1 := by
    have hin := h.inTime
    rw [← hsent, List.pairwise_map] at hin
    refine countP_le_one (hin.imp fun {x y} hlt hx => ?_)
    exact absurd (of_decide_eq_true hx) hlt.not_ge
  have hreported := h.reported
  rw [windowPackets, ← hsent, ← hevents, List.filter_map, List.filter_map, List.length_map,
    List.length_map, ← List.countP_eq_length_filter, ← List.countP_eq_length_filter]
  constructor
  · refine List.countP_mono_left fun x hx hwindow => ?_
    exact (hreported x hx).measured (of_decide_eq_true hwindow).1
  · refine (countP_le_add fun x hx hm hwindow => ?_).trans
      (Nat.add_le_add_left (Nat.add_le_add hearly hlate) _)
    rw [Function.comp_apply, decide_eq_true_eq, not_and, not_lt] at hwindow
    by_cases hwarm : w.start + spec.warmup ≤ x.1.2
    · exact Or.inr (decide_eq_true (hwindow hwarm))
    · exact Or.inl (Bool.and_eq_true_iff.mpr ⟨hm, decide_eq_true (not_le.mp hwarm)⟩)

end Log

end Ipfusch
