import Ipfusch.QuicSystem

/-!
# The QUIC client by itself

`quicStream` is `run_stream_quic` after its handshake, against any server : `read_exact` may
yield any forty bytes at any time, or fail. `quicSystem_client` : the client of `quicSystem`
is one.
-/

namespace Ipfusch

/-- The client and its clock. -/
structure QuicStreamState where
  clock : ℕ
  client : WaitState

/-- What can come next. -/
inductive QuicStreamAction
  /-- Time passes. -/
  | wait (n : ℕ)
  /-- The client's next step. -/
  | tick
  /-- The client's write fails. -/
  | sendFails
  /-- `read_exact` is complete. -/
  | readDone (ack : List UInt8)
  /-- `read_exact` fails. -/
  | readFails
  /-- The timeout elapses. -/
  | elapsed
  deriving DecidableEq, Repr

/-- What the client shows. What arrives are the bytes of a header. -/
abbrev QuicStreamObs := WaitObs (List UInt8)

/-- One step of the client. -/
def quicStreamStep (spec : StreamRunSpec) (s : QuicStreamState) :
    QuicStreamAction → Option (QuicStreamState × List QuicStreamObs)
  | .wait n => some ({ s with clock := s.clock + n }, [])
  | .tick =>
    match s.client.pc with
    | .send sendMonoNs =>
      some ({ s with client := { s.client with pc := .measure sendMonoNs } },
        [.sent s.client.seq s.clock])
    | _ => (waitTick spec s.client s.clock).map fun client => ({ s with client := client }, [])
  | .sendFails =>
    match s.client.pc with
    | .send _ => some ({ s with client := { s.client with pc := .failed } }, [])
    | _ => none
  | .readDone ack =>
    match s.client.pc with
    | .recv sendMonoNs measured _ =>
      if ack.length = dataHeaderSize then
        let r := onHeader spec s.client sendMonoNs measured ack s.clock
        some ({ s with client := r.1 }, .arrived ack s.clock :: r.2)
      else none
    | _ => none
  | .readFails =>
    match s.client.pc with
    | .recv sendMonoNs measured _ =>
      some ({ s with client := { s.client with pc := .head } },
        [.event (s.client.report spec sendMonoNs measured none)])
    | _ => none
  | .elapsed =>
    match s.client.pc with
    | .recv sendMonoNs measured deadline =>
      if deadline ≤ s.clock then
        some ({ s with client := { s.client with pc := .head } },
          [.event (s.client.report spec sendMonoNs measured none)])
      else none
    | _ => none

/-- `run_stream_quic` from the start of its loop. -/
def quicStream (spec : StreamRunSpec) (start : ℕ) :
    Machine QuicStreamState QuicStreamAction QuicStreamObs where
  init := ⟨start, ⟨start, .begin, 0, 0⟩⟩
  step := quicStreamStep spec

/-! ## The client in the system -/

/-- The client of a system, by itself. -/
def QuicState.clientOf (s : QuicState) : QuicStreamState :=
  ⟨s.clock, s.client⟩

/-- What a header does to the loop does not depend on what arrives. -/
theorem onHeader_congr {β γ : Type} (spec : StreamRunSpec) (s : WaitState) (sendMonoNs : ℕ)
    (measured : Bool) (ack : List UInt8) (now : ℕ) :
    (onHeader (β := β) spec s sendMonoNs measured ack now).1 =
        (onHeader (β := γ) spec s sendMonoNs measured ack now).1 ∧
      waitEvents (onHeader (β := β) spec s sendMonoNs measured ack now).2 =
        waitEvents (onHeader (β := γ) spec s sendMonoNs measured ack now).2 := by
  unfold onHeader
  cases DataHeader.decode ack <;> exact ⟨rfl, rfl⟩

/-- Each step of the system is one of the client by itself, with the same events, or one of the
stream. -/
theorem quicStep_client {spec : StreamRunSpec} {s s' : QuicState} {a : QuicAction}
    {o : List QuicObs} (hs : quicStep spec s a = some (s', o)) :
    (s'.clientOf = s.clientOf ∧ waitEvents o = []) ∨ ∃ a' o',
      quicStreamStep spec s.clientOf a' = some (s'.clientOf, o') ∧
        waitEvents o' = waitEvents o := by
  unfold quicStep at hs
  cases a with
  | wait n =>
    obtain ⟨rfl, rfl⟩ := Prod.mk.inj (Option.some.inj hs)
    exact .inr ⟨.wait n, [], rfl, rfl⟩
  | tick =>
    dsimp only at hs
    split at hs
    · rename_i sendMonoNs hpc
      obtain ⟨rfl, rfl⟩ := Prod.mk.inj (Option.some.inj hs)
      refine .inr ⟨.tick, [.sent s.client.seq s.clock], ?_, rfl⟩
      simp [quicStreamStep, QuicState.clientOf, hpc]
    · rename_i hsend
      rw [Option.map_eq_some_iff] at hs
      obtain ⟨client, htick, hs⟩ := hs
      obtain ⟨rfl, rfl⟩ := Prod.mk.inj hs
      refine .inr ⟨.tick, [], ?_, rfl⟩
      unfold quicStreamStep QuicState.clientOf
      dsimp only
      rw [htick]
      split
      · exact absurd ‹_› (hsend _)
      · rfl
  | sendFails =>
    dsimp only at hs
    split at hs
    · rename_i sendMonoNs hpc
      obtain ⟨rfl, rfl⟩ := Prod.mk.inj (Option.some.inj hs)
      refine .inr ⟨.sendFails, [], ?_, rfl⟩
      simp [quicStreamStep, QuicState.clientOf, hpc]
    · cases hs
  | arrive n =>
    dsimp only at hs
    split_ifs at hs
    obtain ⟨rfl, rfl⟩ := Prod.mk.inj (Option.some.inj hs)
    exact .inl ⟨rfl, rfl⟩
  | read n =>
    dsimp only at hs
    split at hs
    · split_ifs at hs
      obtain ⟨rfl, rfl⟩ := Prod.mk.inj (Option.some.inj hs)
      exact .inl ⟨rfl, rfl⟩
    · cases hs
  | readDone =>
    dsimp only at hs
    split at hs
    · rename_i sendMonoNs measured deadline hpc
      split_ifs at hs with hlen
      obtain ⟨rfl, rfl⟩ := Prod.mk.inj (Option.some.inj hs)
      obtain ⟨hclient, hevents⟩ := onHeader_congr (β := ℕ) (γ := List UInt8) spec s.client
        sendMonoNs measured s.got s.clock
      refine .inr ⟨.readDone s.got, .arrived s.got s.clock ::
        (onHeader spec s.client sendMonoNs measured s.got s.clock).2, ?_, hevents.symm⟩
      unfold quicStreamStep QuicState.clientOf
      simp only [hpc, hlen, if_true, hclient]
    · cases hs
  | readFails =>
    dsimp only at hs
    split at hs
    · rename_i sendMonoNs measured deadline hpc
      split_ifs at hs
      obtain ⟨rfl, rfl⟩ := Prod.mk.inj (Option.some.inj hs)
      refine .inr ⟨.readFails, [.event (s.client.report spec sendMonoNs measured none)], ?_, rfl⟩
      simp [quicStreamStep, QuicState.clientOf, hpc]
    · cases hs
  | elapsed =>
    dsimp only at hs
    split at hs
    · rename_i sendMonoNs measured deadline hpc
      split_ifs at hs with hguard
      obtain ⟨rfl, rfl⟩ := Prod.mk.inj (Option.some.inj hs)
      refine .inr ⟨.elapsed, [.event (s.client.report spec sendMonoNs measured none)], ?_, rfl⟩
      simp [quicStreamStep, QuicState.clientOf, hpc, hguard.2.2]
    · cases hs

/-- A run of the system is one of the client, with the same events. -/
theorem quicSystem_client {spec : StreamRunSpec} {start : ℕ} {t : List QuicObs} {s : QuicState}
    (hr : (quicSystem spec start).Reach t s) :
    ∃ t', (quicStream spec start).Reach t' s.clientOf ∧ waitEvents t' = waitEvents t :=
  hr.simulate QuicState.clientOf WaitObs.event? WaitObs.event? rfl quicStep_client

end Ipfusch
