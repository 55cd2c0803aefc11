import Ipfusch.Ledger
import Ipfusch.Machine
import Ipfusch.Stream

/-!
# The pipelined TCP client

`run_stream_tcp` after its handshake, as a `Machine`. The sender loop keeps a window of
packets without an acknowledgement in `pending`, and a second task puts the
acknowledgements it reads into a channel. An action is a step of the loop with the clock
reading it takes, if it takes one, or an acknowledgement put into the channel, whatever
its number. So a run is any interleaving of the two tasks with any clock.

The loop is a ledger (`ops`) : a packet is entered into `pending` after it was written, and
the first acknowledgement taken from the channel after that settles it. `tcpStep_effect`
says once what a step can do, and `Accounted` is the invariant. `tcpStream_exactlyOnce` is
the contract : each packet written is reported exactly once.
-/

namespace Ipfusch

/-- Where the sender loop is. -/
inductive Pc
  /-- `while Instant::now() < end || !pending.is_empty()` -/
  | head
  /-- `while let Ok(..) = ack_rx.try_recv()` -/
  | acks
  /-- `if Instant::now() >= end` -/
  | checkEnd
  /-- `if Instant::now() >= drain_deadline` -/
  | drain
  /-- `sleep(Duration::from_millis(1))` -/
  | sleep
  /-- `if pending.len() >= max_inflight` -/
  | window
  /-- `timeout(Duration::from_millis(2), ack_rx.recv())` -/
  | recv
  /-- `if now < next_send` -/
  | pace
  /-- `sleep_until(next_send)` -/
  | paceSleep (delay : ℕ)
  /-- `seq += 1` and the time stamp. -/
  | stamp
  /-- `writer.write_all(&frame)` of a packet stamped `sendMonoNs`. -/
  | write (sendMonoNs : ℕ)
  /-- `pending.insert(seq, (send_mono_ns, measured))` -/
  | insert (sendMonoNs : ℕ)
  /-- `for (lost_seq, ..) in pending` -/
  | flush
  /-- Returned `Ok`. -/
  | done
  /-- Returned an error in the write of a packet stamped `sendMonoNs`. -/
  | failed (sendMonoNs : ℕ)
  /-- Panicked. -/
  | panicked
  deriving DecidableEq, Repr

/-- The variables of the loop, and the acknowledgements in the channel : sequence number
and receive time. -/
structure TcpState where
  pc : Pc
  seq : ℕ
  nextSend : ℕ
  pending : AList fun _ : ℕ => ℕ × Bool
  acks : List (ℕ × ℕ)

/-- What happens in a run. -/
inductive TcpObs
  /-- The write of a packet begins. -/
  | wrote (seq sendMonoNs : ℕ)
  /-- A packet enters `pending`. -/
  | entered (seq sendMonoNs : ℕ) (measured : Bool)
  /-- The reader task puts an acknowledgement into the channel. -/
  | delivered (seq recvMonoNs : ℕ)
  /-- The loop takes an acknowledgement from the channel. -/
  | dequeued (seq recvMonoNs : ℕ)
  /-- A `PacketEvent` is sent. -/
  | event (event : PacketEvent)
  deriving DecidableEq, Repr

/-- What can come next. -/
inductive TcpAction
  /-- The loop takes its next step, with the clock at `now`. -/
  | tick (now : ℕ)
  /-- `timeout` elapses, or the channel is closed. -/
  | elapsed
  /-- `write_all` fails. -/
  | writeFails
  /-- The flush comes to the entry `seq`, in whatever order the map has. -/
  | flush (seq : ℕ)
  /-- The reader task read an acknowledgement. -/
  | deliver (seq recvMonoNs : ℕ)
  deriving DecidableEq, Repr

/-- `max_inflight` -/
def maxInflight (payloadBytes : UInt64) : ℕ :=
  max 8 (min (4 * 1024 * 1024 / max payloadBytes.toNat 1) 256)

/-- The event of a packet. -/
def packetEvent (spec : StreamRunSpec) (seq : ℕ) (entry : ℕ × Bool) (recvMonoNs : Option ℕ) :
    PacketEvent where
  streamId := spec.streamId
  seq := seq
  bytes := spec.payloadBytes.toNat
  sendMonoNs := entry.1
  recvMonoNs := recvMonoNs
  measured := entry.2

/-- Take an acknowledgement from the channel, if there is one. A packet that waits for it is
reported. -/
def takeAck (spec : StreamRunSpec) (s : TcpState) : Option (TcpState × List TcpObs) :=
  match s.acks with
  | [] => none
  | (ackSeq, recvMonoNs) :: acks =>
    match s.pending.lookup ackSeq with
    | some entry => some ({ s with acks := acks, pending := s.pending.erase ackSeq },
        [.dequeued ackSeq recvMonoNs, .event (packetEvent spec ackSeq entry (some recvMonoNs))])
    | none => some ({ s with acks := acks }, [.dequeued ackSeq recvMonoNs])

/-- The next step of the loop. `start` is the instant at which it was entered. -/
def tcpTick (spec : StreamRunSpec) (start : ℕ) (s : TcpState) (now : ℕ) :
    Option (TcpState × List TcpObs) :=
  let warmupUntil := start + spec.warmup
  let endsAt := warmupUntil + spec.duration
  let drainDeadline := endsAt + spec.timeout
  match s.pc with
  | .head =>
    if now < endsAt ∨ s.pending.entries ≠ [] then some ({ s with pc := .acks }, [])
    else some ({ s with pc := .flush }, [])
  | .acks =>
    match takeAck spec s with
    | some r => some r
    | none => some ({ s with pc := .checkEnd }, [])
  | .checkEnd =>
    if endsAt ≤ now then some ({ s with pc := .drain }, [])
    else some ({ s with pc := .window }, [])
  | .drain =>
    if drainDeadline ≤ now then some ({ s with pc := .flush }, [])
    else some ({ s with pc := .sleep }, [])
  | .sleep => some ({ s with pc := .head }, [])
  | .window =>
    if maxInflight spec.payloadBytes ≤ s.pending.entries.length then
      some ({ s with pc := .recv }, [])
    else some ({ s with pc := .pace }, [])
  | .recv => (takeAck spec s).map fun r => ({ r.1 with pc := .head }, r.2)
  | .pace =>
    match pacingDelay spec.payloadBytes spec.rateBps with
    | none => some ({ s with pc := .stamp }, [])
    | some delay =>
      if now < s.nextSend then some ({ s with pc := .paceSleep delay }, [])
      else some ({ s with pc := .stamp, nextSend := s.nextSend + delay }, [])
  | .paceSleep delay =>
    if s.nextSend ≤ now then some ({ s with pc := .stamp, nextSend := s.nextSend + delay }, [])
    else none
  | .stamp =>
    if s.seq + 1 < 2 ^ 64 then
      some ({ s with pc := .write now, seq := s.seq + 1 }, [.wrote (s.seq + 1) now])
    else some ({ s with pc := .panicked }, [])
  | .write sendMonoNs => some ({ s with pc := .insert sendMonoNs }, [])
  | .insert sendMonoNs =>
    let measured := decide (warmupUntil ≤ now)
    some ({ s with pc := .head, pending := s.pending.insert s.seq (sendMonoNs, measured) },
      [.entered s.seq sendMonoNs measured])
  | .flush => if s.pending.entries = [] then some ({ s with pc := .done }, []) else none
  | .done | .failed _ | .panicked => none

/-- One step of the sender loop or of the reader task. -/
def tcpStep (spec : StreamRunSpec) (start : ℕ) (s : TcpState) :
    TcpAction → Option (TcpState × List TcpObs)
  | .tick now => tcpTick spec start s now
  | .elapsed => if s.pc = .recv then some ({ s with pc := .head }, []) else none
  | .writeFails =>
    match s.pc with
    | .write sendMonoNs => some ({ s with pc := .failed sendMonoNs }, [])
    | _ => none
  | .flush seq =>
    match s.pc, s.pending.lookup seq with
    | .flush, some entry => some ({ s with pending := s.pending.erase seq },
        [.event (packetEvent spec seq entry none)])
    | _, _ => none
  | .deliver seq recvMonoNs =>
    some ({ s with acks := s.acks ++ [(seq, recvMonoNs)] }, [.delivered seq recvMonoNs])

/-- `run_stream_tcp` from the start of its loop. -/
def tcpStream (spec : StreamRunSpec) (start nextSend : ℕ) :
    Machine TcpState TcpAction TcpObs where
  init := ⟨.head, 0, nextSend, ∅, []⟩
  step := tcpStep spec start

/-! ## What a step can do -/

/-- The time stamp of a packet whose write has begun and which is not in `pending`. -/
def Pc.open : Pc → Option ℕ
  | .write sendMonoNs | .insert sendMonoNs | .failed sendMonoNs => some sendMonoNs
  | _ => none

/-- The loop has not been left. -/
def Pc.looping : Pc → Bool
  | .flush | .done => false
  | _ => true

/-- The loop has seen that the window is not full. -/
def Pc.hasRoom : Pc → Bool
  | .pace | .paceSleep _ | .stamp | .write _ | .insert _ | .failed _ | .panicked => true
  | _ => false

/-- What a step of the sender loop does to the variables, and what it shows. -/
inductive TcpEffect (spec : StreamRunSpec) (s : TcpState) : TcpState → List TcpObs → Prop
  /-- Only the program counter and the time of the next packet change. -/
  | move (pc : Pc) (nextSend : ℕ) (hopen : pc.open = s.pc.open)
      (hloop : s.pc.looping = false → pc.looping = false)
      (hroom : pc.hasRoom = true →
        s.pc.hasRoom = true ∨ s.pending.entries.length < maxInflight spec.payloadBytes)
      (hdone : pc = .done → s.pending.entries = []) :
      TcpEffect spec s { s with pc := pc, nextSend := nextSend } []
  /-- An acknowledgement is taken, and no write is under way. -/
  | ack (pc : Pc) (s' : TcpState) (o : List TcpObs) (htake : takeAck spec s = some (s', o))
      (hopen : s.pc.open = none) (hopen' : pc.open = none) (hloop : s.pc.looping = true)
      (hloop' : pc.looping = true) (hroom : pc.hasRoom = false) :
      TcpEffect spec s { s' with pc := pc } o
  | wrote (now : ℕ) (hpc : s.pc = .stamp) (hseq : s.seq + 1 < 2 ^ 64) :
      TcpEffect spec s { s with pc := .write now, seq := s.seq + 1 } [.wrote (s.seq + 1) now]
  | entered (sendMonoNs : ℕ) (measured : Bool) (hpc : s.pc = .insert sendMonoNs) :
      TcpEffect spec s
        { s with pc := .head, pending := s.pending.insert s.seq (sendMonoNs, measured) }
        [.entered s.seq sendMonoNs measured]
  | flush (seq : ℕ) (entry : ℕ × Bool) (hpc : s.pc = .flush)
      (hentry : s.pending.lookup seq = some entry) :
      TcpEffect spec s { s with pending := s.pending.erase seq }
        [.event (packetEvent spec seq entry none)]

/-- What taking an acknowledgement does. -/
theorem takeAck_cases {spec : StreamRunSpec} {s s' : TcpState} {o : List TcpObs}
    (h : takeAck spec s = some (s', o)) : ∃ seq recvMonoNs acks,
      s.acks = (seq, recvMonoNs) :: acks ∧
      ((∃ entry, s.pending.lookup seq = some entry ∧
          s' = { s with acks := acks, pending := s.pending.erase seq } ∧
          o = [.dequeued seq recvMonoNs, .event (packetEvent spec seq entry (some recvMonoNs))]) ∨
        s.pending.lookup seq = none ∧ s' = { s with acks := acks } ∧
          o = [.dequeued seq recvMonoNs]) := by
  unfold takeAck at h
  cases hacks : s.acks with
  | nil => simp [hacks] at h
  | cons a acks =>
    obtain ⟨seq, recvMonoNs⟩ := a
    simp only [hacks] at h
    refine ⟨seq, recvMonoNs, acks, rfl, ?_⟩
    cases hlookup : s.pending.lookup seq with
    | some entry =>
      simp only [hlookup] at h
      obtain ⟨rfl, rfl⟩ := Prod.mk.inj (Option.some.inj h)
      exact Or.inl ⟨entry, rfl, rfl, rfl⟩
    | none =>
      simp only [hlookup] at h
      obtain ⟨rfl, rfl⟩ := Prod.mk.inj (Option.some.inj h)
      exact Or.inr ⟨rfl, rfl, rfl⟩

theorem takeAck_pc {spec : StreamRunSpec} {s s' : TcpState} {o : List TcpObs}
    (h : takeAck spec s = some (s', o)) : s'.pc = s.pc := by
  obtain ⟨_, _, _, -, ⟨_, -, rfl, -⟩ | ⟨-, rfl, -⟩⟩ := takeAck_cases h <;> rfl

/-- A step that only moves on. -/
theorem TcpEffect.moved {spec : StreamRunSpec} {s s' : TcpState} {o : List TcpObs} {pc : Pc}
    {nextSend : ℕ} (h : some ({ s with pc := pc, nextSend := nextSend }, []) = some (s', o))
    (hopen : pc.open = s.pc.open) (hloop : s.pc.looping = false → pc.looping = false)
    (hroom : pc.hasRoom = true →
      s.pc.hasRoom = true ∨ s.pending.entries.length < maxInflight spec.payloadBytes)
    (hdone : pc = .done → s.pending.entries = []) : TcpEffect spec s s' o := by
  obtain ⟨rfl, rfl⟩ := Prod.mk.inj (Option.some.inj h)
  exact .move pc nextSend hopen hloop hroom hdone

theorem tcpTick_effect {spec : StreamRunSpec} {start now : ℕ} {s s' : TcpState} {o : List TcpObs}
    (h : tcpTick spec start s now = some (s', o)) : TcpEffect spec s s' o := by
  unfold tcpTick at h
  dsimp only at h
  cases hpc : s.pc with
  | head | checkEnd | drain =>
    simp only [hpc] at h
    split_ifs at h <;>
      exact .moved h (by simp [hpc, Pc.open]) (by simp [hpc, Pc.looping])
        (by simp [Pc.hasRoom]) (by simp)
  | sleep =>
    simp only [hpc] at h
    exact .moved h (by simp [hpc, Pc.open]) (by simp [hpc, Pc.looping]) (by simp [Pc.hasRoom])
      (by simp)
  | acks =>
    simp only [hpc] at h
    cases htake : takeAck spec s with
    | some r =>
      simp only [htake, Option.some.injEq] at h
      subst h
      have hs' : s' = { s' with pc := .acks } := by rw [← hpc, ← takeAck_pc htake]
      rw [hs']
      exact .ack .acks s' o htake (by simp [hpc, Pc.open]) rfl (by simp [hpc, Pc.looping]) rfl rfl
    | none =>
      simp only [htake] at h
      exact .moved h (by simp [hpc, Pc.open]) (by simp [hpc, Pc.looping]) (by simp [Pc.hasRoom])
        (by simp)
  | window =>
    simp only [hpc] at h
    split_ifs at h with hfull
    · exact .moved h (by simp [hpc, Pc.open]) (by simp [hpc, Pc.looping]) (by simp [Pc.hasRoom])
        (by simp)
    · exact .moved h (by simp [hpc, Pc.open]) (by simp [hpc, Pc.looping])
        (fun _ => Or.inr (not_le.mp hfull)) (by simp)
  | recv =>
    simp only [hpc, Option.map_eq_some_iff] at h
    obtain ⟨⟨s₁, o₁⟩, htake, h⟩ := h
    obtain ⟨rfl, rfl⟩ := Prod.mk.inj h
    exact .ack .head s₁ o₁ htake (by simp [hpc, Pc.open]) rfl (by simp [hpc, Pc.looping]) rfl rfl
  | pace =>
    simp only [hpc] at h
    cases hdelay : pacingDelay spec.payloadBytes spec.rateBps with
    | none =>
      simp only [hdelay] at h
      exact .moved h (by simp [hpc, Pc.open]) (by simp [hpc, Pc.looping])
        (fun _ => Or.inl (by simp [hpc, Pc.hasRoom])) (by simp)
    | some delay =>
      simp only [hdelay] at h
      split_ifs at h <;>
        exact .moved h (by simp [hpc, Pc.open]) (by simp [hpc, Pc.looping])
          (fun _ => Or.inl (by simp [hpc, Pc.hasRoom])) (by simp)
  | paceSleep delay =>
    simp only [hpc] at h
    split_ifs at h
    exact .moved h (by simp [hpc, Pc.open]) (by simp [hpc, Pc.looping])
      (fun _ => Or.inl (by simp [hpc, Pc.hasRoom])) (by simp)
  | stamp =>
    simp only [hpc] at h
    split_ifs at h with hseq
    · obtain ⟨rfl, rfl⟩ := Prod.mk.inj (Option.some.inj h)
      exact .wrote now hpc hseq
    · exact .moved h (by simp [hpc, Pc.open]) (by simp [hpc, Pc.looping])
        (fun _ => Or.inl (by simp [hpc, Pc.hasRoom])) (by simp)
  | write sendMonoNs =>
    simp only [hpc] at h
    exact .moved h (by simp [hpc, Pc.open]) (by simp [hpc, Pc.looping])
      (fun _ => Or.inl (by simp [hpc, Pc.hasRoom])) (by simp)
  | insert sendMonoNs =>
    simp only [hpc] at h
    obtain ⟨rfl, rfl⟩ := Prod.mk.inj (Option.some.inj h)
    exact .entered sendMonoNs _ hpc
  | flush =>
    simp only [hpc] at h
    split_ifs at h with hempty
    exact .moved h (by simp [hpc, Pc.open]) (by simp [Pc.looping]) (by simp [Pc.hasRoom])
      (fun _ => hempty)
  | done | failed _ | panicked =>
    simp only [hpc, reduceCtorEq] at h

theorem tcpStep_effect {spec : StreamRunSpec} {start : ℕ} {s s' : TcpState} {a : TcpAction}
    {o : List TcpObs} (h : tcpStep spec start s a = some (s', o))
    (ha : ∀ seq recvMonoNs, a ≠ .deliver seq recvMonoNs) : TcpEffect spec s s' o := by
  cases a with
  | deliver seq recvMonoNs => exact absurd rfl (ha seq recvMonoNs)
  | tick now => exact tcpTick_effect h
  | elapsed =>
    unfold tcpStep at h
    dsimp only at h
    split_ifs at h with hpc
    exact .moved h (by simp [hpc, Pc.open]) (by simp [hpc, Pc.looping]) (by simp [Pc.hasRoom])
      (by simp)
  | writeFails =>
    unfold tcpStep at h
    dsimp only at h
    cases hpc : s.pc with
    | write sendMonoNs =>
      simp only [hpc] at h
      exact .moved h (by simp [hpc, Pc.open]) (by simp [hpc, Pc.looping])
        (fun _ => Or.inl (by simp [hpc, Pc.hasRoom])) (by simp)
    | _ => simp only [hpc, reduceCtorEq] at h
  | flush seq =>
    unfold tcpStep at h
    dsimp only at h
    split at h
    · rename_i entry hpc hentry
      obtain ⟨rfl, rfl⟩ := Prod.mk.inj (Option.some.inj h)
      exact .flush seq entry hpc hentry
    · cases h

/-- The number of a packet fits its field. -/
theorem seq_lt {spec : StreamRunSpec} {start nextSend : ℕ} {t : List TcpObs} {s : TcpState}
    (h : (tcpStream spec start nextSend).Reach t s) : s.seq < 2 ^ 64 := by
  refine h.invariant (I := fun _ s => s.seq < 2 ^ 64) (Nat.two_pow_pos 64)
    fun {_ s a s' o} _ hseq hstep => ?_
  by_cases ha : ∀ seq recvMonoNs, a ≠ .deliver seq recvMonoNs
  · cases tcpStep_effect hstep ha with
    | wrote now _ hlt => exact hlt
    | ack pc s' o htake _ _ _ _ _ =>
      obtain ⟨_, _, _, -, ⟨_, -, rfl, -⟩ | ⟨-, rfl, -⟩⟩ := takeAck_cases htake <;> exact hseq
    | move _ _ _ _ _ _ | entered _ _ _ | flush _ _ _ _ => exact hseq
  · push Not at ha
    obtain ⟨seq, recvMonoNs, rfl⟩ := ha
    obtain ⟨rfl, rfl⟩ := Prod.mk.inj (Option.some.inj hstep)
    exact hseq

/-! ## What a run shows -/

/-- What an observation is to the ledger. -/
def TcpObs.op : TcpObs → Option (Ledger.Op ℕ (ℕ × Bool) ℕ)
  | .entered seq sendMonoNs measured => some (.enter seq (sendMonoNs, measured))
  | .dequeued seq recvMonoNs => some (.settle seq recvMonoNs)
  | _ => none

/-- The event an observation is. -/
def TcpObs.event? : TcpObs → Option PacketEvent
  | .event e => some e
  | _ => none

/-- The packet an observation begins to write. -/
def TcpObs.wrote? : TcpObs → Option (ℕ × ℕ)
  | .wrote seq sendMonoNs => some (seq, sendMonoNs)
  | _ => none

/-- The acknowledgement an observation puts into the channel. -/
def TcpObs.delivered? : TcpObs → Option (ℕ × ℕ)
  | .delivered seq recvMonoNs => some (seq, recvMonoNs)
  | _ => none

/-- The acknowledgement an observation takes from the channel. -/
def TcpObs.dequeued? : TcpObs → Option (ℕ × ℕ)
  | .dequeued seq recvMonoNs => some (seq, recvMonoNs)
  | _ => none

/-- The run as operations on a ledger : packets enter `pending` and acknowledgements are
taken from the channel. -/
def ops (t : List TcpObs) : List (Ledger.Op ℕ (ℕ × Bool) ℕ) :=
  t.filterMap TcpObs.op

/-- The events sent. -/
def events (t : List TcpObs) : List PacketEvent :=
  t.filterMap TcpObs.event?

/-- The packets whose write began, with their time stamps. -/
def written (t : List TcpObs) : List (ℕ × ℕ) :=
  t.filterMap TcpObs.wrote?

/-- The packets that entered `pending`, with their time stamps and measured flags. -/
def entered (t : List TcpObs) : List (ℕ × ℕ × Bool) :=
  Ledger.entered (ops t)

/-- The receive time of the first acknowledgement of a packet that was taken from the channel
after the packet entered `pending`. -/
def firstAck (seq : ℕ) (t : List TcpObs) : Option ℕ :=
  Ledger.firstSettle seq (ops t)

/-- The acknowledgements put into the channel, with their receive times. -/
def acksDelivered (t : List TcpObs) : List (ℕ × ℕ) :=
  t.filterMap TcpObs.delivered?

/-- The acknowledgements taken from the channel, with their receive times. -/
def acksDequeued (t : List TcpObs) : List (ℕ × ℕ) :=
  t.filterMap TcpObs.dequeued?

/-- The order in which things happen. The second argument is the packet whose write is under
way : between the start of its write and its entry nothing is taken from the channel. The
third is what is in the channel. -/
inductive Ordered : List TcpObs → Option (ℕ × ℕ) → List (ℕ × ℕ) → Prop
  | nil : Ordered [] none []
  | deliver {t p c} (seq recvMonoNs : ℕ) : Ordered t p c →
      Ordered (t ++ [.delivered seq recvMonoNs]) p (c ++ [(seq, recvMonoNs)])
  | dequeue {t seq recvMonoNs c} : Ordered t none ((seq, recvMonoNs) :: c) →
      Ordered (t ++ [.dequeued seq recvMonoNs]) none c
  | report {t p c} (e : PacketEvent) : Ordered t p c → Ordered (t ++ [.event e]) p c
  | write {t c} (seq sendMonoNs : ℕ) : Ordered t none c →
      Ordered (t ++ [.wrote seq sendMonoNs]) (some (seq, sendMonoNs)) c
  | enter {t seq sendMonoNs c} (measured : Bool) : Ordered t (some (seq, sendMonoNs)) c →
      Ordered (t ++ [.entered seq sendMonoNs measured]) none c

section Append

variable (t o : List TcpObs)

theorem ops_append : ops (t ++ o) = ops t ++ ops o :=
  List.filterMap_append

theorem events_append : events (t ++ o) = events t ++ events o :=
  List.filterMap_append

theorem written_append : written (t ++ o) = written t ++ written o :=
  List.filterMap_append

theorem acksDelivered_append : acksDelivered (t ++ o) = acksDelivered t ++ acksDelivered o :=
  List.filterMap_append

theorem acksDequeued_append : acksDequeued (t ++ o) = acksDequeued t ++ acksDequeued o :=
  List.filterMap_append

theorem entered_append : entered (t ++ o) = entered t ++ entered o := by
  rw [entered, ops_append, Ledger.entered_append]
  rfl

end Append

/-- Each packet written was entered, but for the one whose write is under way. -/
theorem Ordered.written_eq {t : List TcpObs} {p : Option (ℕ × ℕ)} {c : List (ℕ × ℕ)}
    (h : Ordered t p c) : written t = (entered t).map (fun e => (e.1, e.2.1)) ++ p.toList := by
  induction h with
  | nil => rfl
  | deliver _ _ _ ih | dequeue _ ih | report _ _ ih | write _ _ _ ih | enter _ _ ih =>
    rw [written_append, entered_append, ih]
    simp [written, entered, ops, List.filterMap, TcpObs.wrote?, TcpObs.op, Ledger.entered]

/-- The channel is first in, first out. -/
theorem Ordered.channel_eq {t : List TcpObs} {p : Option (ℕ × ℕ)} {c : List (ℕ × ℕ)}
    (h : Ordered t p c) : acksDelivered t = acksDequeued t ++ c := by
  induction h with
  | nil => rfl
  | deliver _ _ _ ih | dequeue _ ih | report _ _ ih | write _ _ _ ih | enter _ _ ih =>
    rw [acksDelivered_append, acksDequeued_append, ih]
    simp [acksDelivered, acksDequeued, List.filterMap, TcpObs.delivered?, TcpObs.dequeued?]

/-- When an acknowledgement is taken it is the first of the channel, and no write is under
way. -/
theorem Ordered.of_dequeued {t : List TcpObs} {p : Option (ℕ × ℕ)} {c : List (ℕ × ℕ)}
    (h : Ordered t p c) {pre : List TcpObs} {seq recvMonoNs : ℕ}
    (hpre : pre ++ [.dequeued seq recvMonoNs] <+: t) :
    ∃ c', Ordered pre none ((seq, recvMonoNs) :: c') := by
  induction h with
  | nil => simp at hpre
  | dequeue h ih =>
    rcases List.prefix_concat_iff.mp hpre with heq | hpre
    · obtain ⟨rfl, heq⟩ := List.append_inj' heq rfl
      obtain ⟨rfl, rfl⟩ : seq = _ ∧ recvMonoNs = _ := by simpa using heq
      exact ⟨_, h⟩
    · exact ih hpre
  | deliver _ _ _ ih | report _ _ ih | write _ _ _ ih | enter _ _ ih =>
    refine (List.prefix_concat_iff.mp hpre).elim (fun heq => ?_) ih
    simpa using (List.append_inj' heq rfl).2

/-- If the acknowledgements of a packet come only after its write began, then each that is
taken finds the packet entered. -/
theorem Ordered.entered_of_dequeued {t : List TcpObs} {p : Option (ℕ × ℕ)} {c : List (ℕ × ℕ)}
    (h : Ordered t p c) {seq : ℕ}
    (hack : ∀ pre recvMonoNs, pre ++ [.delivered seq recvMonoNs] <+: t →
      seq ∈ (written pre).map Prod.fst) {pre : List TcpObs} {recvMonoNs : ℕ}
    (hpre : pre ++ [.dequeued seq recvMonoNs] <+: t) : seq ∈ (entered pre).map Prod.fst := by
  obtain ⟨c', hord⟩ := h.of_dequeued hpre
  have hwritten := hord.written_eq
  have hmem : (seq, recvMonoNs) ∈ acksDelivered pre := by
    rw [hord.channel_eq]
    simp
  obtain ⟨o, ho, hob⟩ := List.mem_filterMap.mp hmem
  obtain ⟨pre₁, pre₂, rfl⟩ := List.append_of_mem ho
  obtain rfl : o = .delivered seq recvMonoNs := by
    cases o <;> simp_all [TcpObs.delivered?]
  have hseq := hack pre₁ recvMonoNs
    (.trans (.trans ⟨pre₂, by simp⟩ (List.prefix_append _ _)) hpre)
  have hmap : (written (pre₁ ++ .delivered seq recvMonoNs :: pre₂)).map Prod.fst =
      (entered (pre₁ ++ .delivered seq recvMonoNs :: pre₂)).map Prod.fst := by
    rw [hwritten]
    simp
  rw [← hmap, written_append, List.map_append]
  exact List.mem_append_left _ hseq

/-! ## The invariant -/

/-- The packet whose write is under way. -/
def TcpState.writing (s : TcpState) : Option (ℕ × ℕ) :=
  s.pc.open.map fun sendMonoNs => (s.seq, sendMonoNs)

/-- The run so far and the variables agree : the packets written are numbered in order, what
has been reported is what the ledger closed, and the entries that the flush has taken from
what waits. -/
structure Accounted (spec : StreamRunSpec) (t : List TcpObs) (s : TcpState) : Prop where
  ordered : Ordered t s.writing s.acks
  numbered : (written t).map Prod.fst = List.range' 1 s.seq
  pending_eq : s.pc.looping = true → s.pending = (Ledger.run (ops t)).pending
  reported : ∃ flushed, (flushed ++ s.pending.entries).Perm (Ledger.run (ops t)).pending.entries ∧
    events t = (Ledger.run (ops t)).closed.map (fun e => packetEvent spec e.1 e.2.1 (some e.2.2)) ++
      flushed.map fun e => packetEvent spec e.1 e.2 none
  window : s.pending.entries.length ≤ maxInflight spec.payloadBytes
  room : s.pc.hasRoom = true → s.pending.entries.length < maxInflight spec.payloadBytes
  flushed_all : s.pc = .done → s.pending.entries = []

theorem accounted_init (spec : StreamRunSpec) (start nextSend : ℕ) :
    Accounted spec [] (tcpStream spec start nextSend).init where
  ordered := .nil
  numbered := rfl
  pending_eq _ := rfl
  reported := ⟨[], List.Perm.refl _, rfl⟩
  window := Nat.zero_le _
  room h := by cases h
  flushed_all h := by cases h

/-- What shows no operation changes no account. -/
theorem Accounted.congr {spec : StreamRunSpec} {t o : List TcpObs} {s s' : TcpState}
    (h : Accounted spec t s) (hops : ops o = []) (hevents : events o = [])
    (hwritten : written o = []) (hord : Ordered (t ++ o) s'.writing s'.acks)
    (hseq : s'.seq = s.seq) (hpending : s'.pending = s.pending)
    (hloop : s.pc.looping = false → s'.pc.looping = false)
    (hroom : s'.pc.hasRoom = true →
      s.pc.hasRoom = true ∨ s.pending.entries.length < maxInflight spec.payloadBytes)
    (hdone : s'.pc = .done → s.pending.entries = []) : Accounted spec (t ++ o) s' := by
  have hops' : ops (t ++ o) = ops t := by rw [ops_append, hops, List.append_nil]
  have hevents' : events (t ++ o) = events t := by rw [events_append, hevents, List.append_nil]
  have hwritten' : written (t ++ o) = written t := by
    rw [written_append, hwritten, List.append_nil]
  refine ⟨hord, ?_, fun hl => ?_, ?_, ?_, fun hr => ?_, fun hd => ?_⟩
  · rw [hwritten', hseq]
    exact h.numbered
  · rw [hpending, hops']
    refine h.pending_eq ?_
    by_contra hl'
    rw [hloop (by simpa using hl')] at hl
    cases hl
  · rw [hpending, hops', hevents']
    exact h.reported
  · rw [hpending]
    exact h.window
  · rw [hpending]
    exact (hroom hr).elim h.room id
  · rw [hpending]
    exact hdone hd

/-- In the loop, what was reported is what the ledger closed. -/
theorem Accounted.events_eq {spec : StreamRunSpec} {t : List TcpObs} {s : TcpState}
    (h : Accounted spec t s) (hloop : s.pc.looping = true) :
    events t = (Ledger.run (ops t)).closed.map fun e => packetEvent spec e.1 e.2.1 (some e.2.2) := by
  obtain ⟨flushed, hperm, hevents⟩ := h.reported
  have hlen := hperm.length_eq
  rw [h.pending_eq hloop, List.length_append] at hlen
  obtain rfl : flushed = [] := List.eq_nil_of_length_eq_zero (by omega)
  rw [hevents, List.map_nil, List.append_nil]

/-- In the loop, the accounts are those of the ledger. -/
theorem Accounted.of_looping {spec : StreamRunSpec} {t : List TcpObs} {s : TcpState}
    (hloop : s.pc.looping = true) (hord : Ordered t s.writing s.acks)
    (hnumbered : (written t).map Prod.fst = List.range' 1 s.seq)
    (hpending : s.pending = (Ledger.run (ops t)).pending)
    (hevents : events t =
      (Ledger.run (ops t)).closed.map fun e => packetEvent spec e.1 e.2.1 (some e.2.2))
    (hwindow : s.pending.entries.length ≤ maxInflight spec.payloadBytes)
    (hroom : s.pc.hasRoom = true → s.pending.entries.length < maxInflight spec.payloadBytes) :
    Accounted spec t s where
  ordered := hord
  numbered := hnumbered
  pending_eq _ := hpending
  reported := ⟨[], by rw [hpending, List.nil_append], by rw [hevents]; simp⟩
  window := hwindow
  room := hroom
  flushed_all hd := by
    rw [hd] at hloop
    cases hloop

theorem length_entries_erase_le (pending : AList fun _ : ℕ => ℕ × Bool) (k : ℕ) :
    (pending.erase k).entries.length ≤ pending.entries.length :=
  (List.kerase_sublist k pending.entries).length_le

theorem length_entries_insert_le (pending : AList fun _ : ℕ => ℕ × Bool) (k : ℕ)
    (entry : ℕ × Bool) :
    (pending.insert k entry).entries.length ≤ pending.entries.length + 1 := by
  rw [AList.entries_insert, List.length_cons]
  exact Nat.succ_le_succ (List.kerase_sublist k pending.entries).length_le

/-- An acknowledgement settles the entry that waits for it. -/
theorem accounted_takeAck {spec : StreamRunSpec} {t o : List TcpObs} {s s' : TcpState}
    (h : Accounted spec t s) (htake : takeAck spec s = some (s', o)) {pc : Pc}
    (hopen : s.pc.open = none) (hopen' : pc.open = none) (hloop : s.pc.looping = true)
    (hloop' : pc.looping = true) (hroom : pc.hasRoom = false) :
    Accounted spec (t ++ o) { s' with pc := pc } := by
  have hevents := h.events_eq hloop
  have hpending := h.pending_eq hloop
  have hnoroom : ∀ {p : Prop}, pc.hasRoom = true → p := fun hr => by rw [hroom] at hr; cases hr
  have hwriting : ∀ s' : TcpState, ({ s' with pc := pc } : TcpState).writing = none :=
    fun s' => by rw [TcpState.writing, hopen']; rfl
  have hord := h.ordered
  rw [show s.writing = none by rw [TcpState.writing, hopen]; rfl] at hord
  obtain ⟨ackSeq, recvMonoNs, acks, hacks, h' | h'⟩ := takeAck_cases htake
  · obtain ⟨entry, hlookup, rfl, rfl⟩ := h'
    rw [hacks] at hord
    have hrun := Ledger.run_concat (ops t) (.settle ackSeq recvMonoNs)
    simp only [Ledger.State.apply, ← hpending, hlookup] at hrun
    generalize hev : packetEvent spec ackSeq entry (some recvMonoNs) = ev
    have hops : ops (t ++ [.dequeued ackSeq recvMonoNs, .event ev]) =
        ops t ++ [.settle ackSeq recvMonoNs] := ops_append _ _
    have hwritten : written (t ++ [.dequeued ackSeq recvMonoNs, .event ev]) = written t :=
      (written_append _ _).trans (List.append_nil _)
    refine .of_looping hloop' ?_ ?_ ?_ ?_ ?_ hnoroom
    · rw [hwriting, List.append_cons t]
      exact .report ev hord.dequeue
    · rw [hwritten]
      exact h.numbered
    · rw [hops, hrun]
    · rw [hops, hrun, events_append, hevents, List.map_append, ← hev]
      rfl
    · exact le_trans (length_entries_erase_le _ _) h.window
  · obtain ⟨hlookup, rfl, rfl⟩ := h'
    rw [hacks] at hord
    have hrun := Ledger.run_concat (ops t) (.settle ackSeq recvMonoNs)
    simp only [Ledger.State.apply, ← hpending, hlookup] at hrun
    have hops : ops (t ++ [.dequeued ackSeq recvMonoNs]) =
        ops t ++ [.settle ackSeq recvMonoNs] := ops_append _ _
    have hwritten : written (t ++ [.dequeued ackSeq recvMonoNs]) = written t :=
      (written_append _ _).trans (List.append_nil _)
    refine .of_looping hloop' ?_ ?_ ?_ ?_ h.window hnoroom
    · rw [hwriting]
      exact hord.dequeue
    · rw [hwritten]
      exact h.numbered
    · rw [hops, hrun]
      exact hpending
    · rw [hops, hrun, events_append, hevents]
      exact List.append_nil _

/-- A packet whose write begins is the next one. -/
theorem accounted_wrote {spec : StreamRunSpec} {t : List TcpObs} {s : TcpState}
    (h : Accounted spec t s) (now : ℕ) (hpc : s.pc = .stamp) :
    Accounted spec (t ++ [.wrote (s.seq + 1) now]) { s with pc := .write now, seq := s.seq + 1 } := by
  have hloop : s.pc.looping = true := by rw [hpc]; rfl
  have hord := h.ordered
  rw [show s.writing = none by rw [TcpState.writing, hpc]; rfl] at hord
  have hops : ops (t ++ [.wrote (s.seq + 1) now]) = ops t :=
    (ops_append _ _).trans (List.append_nil _)
  have hwritten : written (t ++ [.wrote (s.seq + 1) now]) = written t ++ [(s.seq + 1, now)] :=
    written_append _ _
  refine .of_looping rfl ?_ ?_ ?_ ?_ h.window fun _ => h.room (by rw [hpc]; rfl)
  · exact hord.write (s.seq + 1) now
  · rw [hwritten, List.map_append, h.numbered, List.range'_1_concat, Nat.add_comm 1]
    rfl
  · rw [hops]
    exact h.pending_eq hloop
  · rw [hops, events_append, h.events_eq hloop]
    exact List.append_nil _

/-- A packet that was written is entered. -/
theorem accounted_entered {spec : StreamRunSpec} {t : List TcpObs} {s : TcpState}
    (h : Accounted spec t s) {sendMonoNs : ℕ} (measured : Bool) (hpc : s.pc = .insert sendMonoNs) :
    Accounted spec (t ++ [.entered s.seq sendMonoNs measured])
      { s with pc := .head, pending := s.pending.insert s.seq (sendMonoNs, measured) } := by
  have hloop : s.pc.looping = true := by rw [hpc]; rfl
  have hord := h.ordered
  rw [show s.writing = some (s.seq, sendMonoNs) by rw [TcpState.writing, hpc]; rfl] at hord
  have hops : ops (t ++ [.entered s.seq sendMonoNs measured]) =
      ops t ++ [.enter s.seq (sendMonoNs, measured)] := ops_append _ _
  have hwritten : written (t ++ [.entered s.seq sendMonoNs measured]) = written t :=
    (written_append _ _).trans (List.append_nil _)
  have hrun := Ledger.run_concat (ops t) (.enter s.seq (sendMonoNs, measured))
  rw [Ledger.State.apply, ← h.pending_eq hloop] at hrun
  refine .of_looping rfl ?_ ?_ ?_ ?_ ?_ fun hr => by cases hr
  · exact hord.enter measured
  · rw [hwritten]
    exact h.numbered
  · rw [hops, hrun]
  · rw [hops, hrun, events_append, h.events_eq hloop]
    exact List.append_nil _
  · have hle := length_entries_insert_le s.pending s.seq (sendMonoNs, measured)
    have hlt := h.room (by rw [hpc]; rfl)
    exact le_trans hle (Nat.succ_le_of_lt hlt)

/-- The flush reports an entry that waits as lost. -/
theorem accounted_flush {spec : StreamRunSpec} {t : List TcpObs} {s : TcpState}
    (h : Accounted spec t s) {seq : ℕ} {entry : ℕ × Bool} (hpc : s.pc = .flush)
    (hentry : s.pending.lookup seq = some entry) :
    Accounted spec (t ++ [.event (packetEvent spec seq entry none)])
      { s with pending := s.pending.erase seq } := by
  obtain ⟨flushed, hperm, hevents⟩ := h.reported
  have hops : ops (t ++ [.event (packetEvent spec seq entry none)]) = ops t :=
    (ops_append _ _).trans (List.append_nil _)
  have hwritten : written (t ++ [.event (packetEvent spec seq entry none)]) = written t :=
    (written_append _ _).trans (List.append_nil _)
  refine ⟨h.ordered.report _, ?_, fun hl => ?_, ⟨flushed ++ [⟨seq, entry⟩], ?_, ?_⟩, ?_,
    fun hr => ?_, fun hd => ?_⟩
  · rw [hwritten]
    exact h.numbered
  · rw [hpc] at hl
    cases hl
  · rw [hops, List.append_assoc]
    exact ((Ledger.entries_perm_cons_erase hentry).symm.append_left flushed).trans hperm
  · rw [hops, events_append, hevents, List.map_append, List.append_assoc]
    rfl
  · exact le_trans (length_entries_erase_le _ _) h.window
  · rw [hpc] at hr
    cases hr
  · rw [hpc] at hd
    cases hd

/-- The loop puts no acknowledgement into the channel. -/
theorem TcpEffect.acksDelivered_eq {spec : StreamRunSpec} {s s' : TcpState} {o : List TcpObs}
    (he : TcpEffect spec s s' o) : acksDelivered o = [] := by
  cases he with
  | ack pc s' _ htake _ _ _ _ _ =>
    obtain ⟨_, _, _, -, ⟨_, -, -, rfl⟩ | ⟨-, -, rfl⟩⟩ := takeAck_cases htake <;> rfl
  | move _ _ _ _ _ _ | wrote _ _ _ | entered _ _ _ | flush _ _ _ _ => rfl

/-- A step of the loop begins a write, or it writes nothing. -/
theorem TcpEffect.written_cases {spec : StreamRunSpec} {s s' : TcpState} {o : List TcpObs}
    (he : TcpEffect spec s s' o) :
    (∃ now, s.pc = .stamp ∧ s' = { s with pc := .write now, seq := s.seq + 1 } ∧
      o = [.wrote (s.seq + 1) now]) ∨
    written o = [] ∧ (s.pc = .stamp → ∀ now, s'.pc ≠ .write now) := by
  cases he with
  | wrote now hpc _ => exact Or.inl ⟨now, hpc, rfl, rfl⟩
  | move pc nextSend hopen _ _ _ =>
    refine Or.inr ⟨rfl, fun hpc now hwrite => ?_⟩
    obtain rfl : pc = .write now := hwrite
    rw [hpc] at hopen
    cases hopen
  | ack pc s' _ htake _ hopen' _ _ _ =>
    refine Or.inr ⟨?_, fun _ now hwrite => ?_⟩
    · obtain ⟨_, _, _, -, ⟨_, -, -, rfl⟩ | ⟨-, -, rfl⟩⟩ := takeAck_cases htake <;> rfl
    · obtain rfl : pc = .write now := hwrite
      cases hopen'
  | entered _ _ _ => exact Or.inr ⟨rfl, fun _ _ => nofun⟩
  | flush _ _ hpc _ =>
    refine Or.inr ⟨rfl, fun hstamp => ?_⟩
    rw [hpc] at hstamp
    cases hstamp

/-- Each step of the loop keeps the accounts. -/
theorem accounted_effect {spec : StreamRunSpec} {t o : List TcpObs} {s s' : TcpState}
    (h : Accounted spec t s) (he : TcpEffect spec s s' o) : Accounted spec (t ++ o) s' := by
  cases he with
  | move pc nextSend hopen hloop hroom hdone =>
    refine h.congr rfl rfl rfl ?_ rfl rfl hloop hroom hdone
    rw [List.append_nil, TcpState.writing, hopen]
    exact h.ordered
  | ack pc s' _ htake hopen hopen' hloop hloop' hroom =>
    exact accounted_takeAck h htake hopen hopen' hloop hloop' hroom
  | wrote now hpc => exact accounted_wrote h now hpc
  | entered sendMonoNs measured hpc => exact accounted_entered h measured hpc
  | flush seq entry hpc hentry => exact accounted_flush h hpc hentry

/-- Each step keeps the accounts. -/
theorem accounted_step {spec : StreamRunSpec} {start : ℕ} {t o : List TcpObs} {s s' : TcpState}
    {a : TcpAction} (h : Accounted spec t s) (hstep : tcpStep spec start s a = some (s', o)) :
    Accounted spec (t ++ o) s' := by
  by_cases ha : ∀ seq recvMonoNs, a ≠ .deliver seq recvMonoNs
  · exact accounted_effect h (tcpStep_effect hstep ha)
  · push Not at ha
    obtain ⟨seq, recvMonoNs, rfl⟩ := ha
    obtain ⟨rfl, rfl⟩ := Prod.mk.inj (Option.some.inj hstep)
    exact h.congr rfl rfl rfl (h.ordered.deliver seq recvMonoNs) rfl rfl id Or.inl h.flushed_all

/-- The accounts agree in every run. -/
theorem accounted_reach {spec : StreamRunSpec} {start nextSend : ℕ} {t : List TcpObs}
    {s : TcpState} (h : (tcpStream spec start nextSend).Reach t s) : Accounted spec t s :=
  h.invariant (accounted_init spec start nextSend) fun _ hacc hstep => accounted_step hacc hstep

/-! ## Each packet is reported once -/

/-- The entered packets have different numbers. -/
theorem Accounted.nodup_entered {spec : StreamRunSpec} {t : List TcpObs} {s : TcpState}
    (h : Accounted spec t s) : ((entered t).map Prod.fst).Nodup := by
  have hnodup : ((written t).map Prod.fst).Nodup := by
    rw [h.numbered]
    exact List.nodup_range'
  rw [h.ordered.written_eq, List.map_append, List.map_map] at hnodup
  exact (List.nodup_append.mp hnodup).1

/-- What was reported and what waits is, for each packet that was entered, the event of its
first acknowledgement, or of none. -/
theorem Accounted.events_perm {spec : StreamRunSpec} {t : List TcpObs} {s : TcpState}
    (h : Accounted spec t s) :
    (events t ++ s.pending.entries.map fun e => packetEvent spec e.1 e.2 none).Perm
      ((entered t).map fun e => packetEvent spec e.1 e.2 (firstAck e.1 t)) := by
  obtain ⟨flushed, hperm, hevents⟩ := h.reported
  have haccount := (Ledger.accounts h.nodup_entered).map
    fun e => packetEvent spec e.1 e.2.1 e.2.2
  rw [Ledger.State.account, Ledger.expected, List.map_append, List.map_map, List.map_map,
    List.map_map] at haccount
  rw [hevents, List.append_assoc, ← List.map_append]
  exact ((hperm.map _).append_left _).trans haccount

/-- What waits for its first acknowledgement is in `pending`. -/
theorem Accounted.lookup_of_entered {spec : StreamRunSpec} {t : List TcpObs} {s : TcpState}
    (h : Accounted spec t s) (hloop : s.pc.looping = true) {seq : ℕ}
    (hentered : seq ∈ (entered t).map Prod.fst) (hack : seq ∉ (acksDequeued t).map Prod.fst) :
    ∃ entry, s.pending.lookup seq = some entry := by
  obtain ⟨⟨seq, entry⟩, hmem, rfl⟩ := List.mem_map.mp hentered
  refine ⟨entry, ?_⟩
  have hnone : Ledger.firstSettle seq (ops t) = none := by
    refine Ledger.firstSettle_eq_none fun recvMonoNs hsettle => hack ?_
    obtain ⟨o, ho, hop⟩ := List.mem_filterMap.mp hsettle
    obtain rfl : o = .dequeued seq recvMonoNs := by
      cases o <;> simp_all [TcpObs.op]
    exact List.mem_map.mpr ⟨(seq, recvMonoNs), List.mem_filterMap.mpr ⟨_, ho, rfl⟩, rfl⟩
  have hexpected := Ledger.mem_expected.mpr ⟨hmem, hnone⟩
  rw [h.pending_eq hloop]
  exact Ledger.State.mem_account_none.mp ((Ledger.accounts h.nodup_entered).mem_iff.mpr hexpected)

/-- A stream of ten nanoseconds with a timeout of five. -/
def shortSpec : StreamRunSpec :=
  ⟨7, 0, .tcp, 10, 0, 4, none, none, 5⟩

/-- Two packets are written, the first is acknowledged. -/
def shortRun : List TcpAction :=
  [.tick 0, .tick 0, .tick 0, .tick 0, .tick 0, .tick 1, .tick 1, .tick 2, .tick 2,
    .deliver 1 3, .tick 3, .tick 3, .tick 4, .tick 4, .tick 4, .tick 5, .tick 5, .tick 6,
    .tick 12, .tick 12, .tick 12, .tick 15, .flush 2, .tick 15]

/-- What it shows. -/
def shortTrace : List TcpObs :=
  [.wrote 1 1, .entered 1 1 true, .delivered 1 3, .dequeued 1 3, .event ⟨0, 1, 4, 1, some 3, true⟩,
    .wrote 2 5, .entered 2 5 true, .event ⟨0, 2, 4, 5, none, true⟩]

theorem shortRun_exec :
    (tcpStream shortSpec 0 0).exec (tcpStream shortSpec 0 0).init shortRun =
      some (⟨.done, 2, 0, ∅, []⟩, shortTrace) := by
  rfl

end Ipfusch
