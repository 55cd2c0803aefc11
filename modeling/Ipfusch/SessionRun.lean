import Ipfusch.HandshakeRun
import Ipfusch.QuicRun
import Ipfusch.TcpRun

/-!
# A run from its handshakes on

`run_benchmark` with streams that each do their handshake over a connection of their own, against
the server's handler, and run their loops once the server's answer is read.

Apart from these handshakes it is a run of streams that are set up at once (`sessionTasks_reach`),
so that what holds of those holds here. `sessionRun_authorized` : in addition a stream is in its
loop only if the server has accepted it and nothing of the handshake is unread, which is how the
loops start. So a run with a stream does not return `Ok` against a server with another token.
-/

namespace Ipfusch

/-! ## Streams that do what others do -/

/-- A run with tasks that take the steps of others, or none, is a run with those. -/
theorem StreamTasks.reach_of_steps {ι σ σ' α α' ω : Type} [DecidableEq ι]
    {T : StreamTasks ι σ' α' ω} {S : StreamTasks ι σ α ω} {cfg : LoopConfig} (f : σ' → σ)
    (hinit : f T.machine.init = S.machine.init)
    (hstep : ∀ {s a s' o}, T.machine.step s a = some (s', o) →
      (f s' = f s ∧ o = []) ∨ ∃ b, S.machine.step (f s) b = some (f s', o))
    (hhandles : T.handles = S.handles) (hevent : T.event = S.event)
    (hended : ∀ s i, T.ended s i = S.ended (f s) i)
    {t : List (Pipe.Obs (ι × ω) EngineObs)} {s : Pipe.State σ' PacketEvent (EngineState ι)}
    (h : (runSystem T cfg).machine.Reach t s) :
    (runSystem S cfg).machine.Reach t ⟨f s.producer, s.channel, s.consumer⟩ := by
  have hproject := h.project (N := (runSystem S cfg).machine)
    (fun s => ⟨f s.producer, s.channel, s.consumer⟩) some ?_ fun {t s a s' o} _ hs => ?_
  · rwa [List.filterMap_some] at hproject
  · change Pipe.State.mk (f T.machine.init) [] (engine cfg T.handles).init = _
    rw [hinit, hhandles]
    rfl
  · rw [List.filterMap_some]
    have hall : ∀ p, T.allEnded p = S.allEnded (f p) := fun p => by
      simp only [StreamTasks.allEnded, hhandles, hended]
    have heffect : (runSystem T cfg).Effect s a s' o := Pipe.step_effect hs
    cases heffect with
    | produce a p o hp =>
      have hmessage : (o.filterMap fun ob => T.event ob.2) =
          o.filterMap fun ob => S.event ob.2 := by
        rw [hevent]
      rcases hstep hp with ⟨hf, rfl⟩ | ⟨b, hb⟩
      · refine .inl ⟨?_, rfl⟩
        change Pipe.State.mk (f p) (s.channel ++ []) s.consumer = _
        rw [hf, List.append_nil]
      · refine .inr ⟨.produce b, ?_⟩
        have hproduce : (runSystem S cfg).machine.step ⟨f s.producer, s.channel, s.consumer⟩
            (.produce b) = some (⟨f p, s.channel ++ o.filterMap fun ob => S.event ob.2, s.consumer⟩,
              o.map .producer) :=
          congrArg (Option.map _) hb
        rw [hproduce, ← hmessage]
        rfl
    | recv m channel c o hchannel hclosed hc =>
      have hc : (engine cfg S.handles).step s.consumer (.recv m) = some (c, o) := hhandles ▸ hc
      have heffect : (runSystem S cfg).Effect ⟨f s.producer, s.channel, s.consumer⟩ .recv
          ⟨f s.producer, channel, c⟩ (o.map .consumer) :=
        .recv m channel c o hchannel
          (fun hm => (hclosed hm).imp_right ((hall s.producer).symm.trans)) hc
      exact .inr ⟨.recv, heffect.step_eq⟩
    | own b c o hallows hc =>
      have hc : (engine cfg S.handles).step s.consumer (.own b) = some (c, o) := hhandles ▸ hc
      have hallows : (runSystem S cfg).allows (f s.producer) b = true := by
        cases b with
        | join i ended =>
          have hallows : decide (T.ended s.producer i = some ended) = true := hallows
          rw [hended] at hallows
          exact hallows
        | tick now | finish => rfl
      have heffect : (runSystem S cfg).Effect ⟨f s.producer, s.channel, s.consumer⟩ (.own b)
          ⟨f s.producer, s.channel, c⟩ (o.map .consumer) :=
        .own b c o hallows hc
      exact .inr ⟨.own b, heffect.step_eq⟩

/-! ## Sessions -/

section Sessions

variable {ρ σ α ω : Type} (sha256 : List UInt8 → Digest) (t : HandlerTexts) (token : Option String)
  (drops : Bool) (cfg : RunConfig) (sessionId : UInt64)
  (M : Fin cfg.streams.toNat → ρ → Machine σ α ω)

/-- A stream from its connection on : its handshake, and its loop once the server's answer is
`Ok`. -/
def session (i : Fin cfg.streams.toNat) :
    Machine (Fleet.Gate HandshakeState ρ SetUpFailure σ)
      (Fleet.GateAction HandshakeAction ρ SetUpFailure α) ω :=
  Fleet.gated (handshakeRun sha256 t token sessionId (UInt32.ofNat i) (cfg.streamSpec sessionId i)
      drops)
    (fun d => (clientEnd sha256 sessionId (UInt32.ofNat i) (cfg.streamSpec sessionId i) d).isOk)
    (M i)

variable (event : ω → Option PacketEvent) (exit : σ → Option StreamExit)

/-- The sessions of a run as tasks. -/
def sessionTasks (hquiet : EndsQuietly M event exit) :
    StreamTasks (Fin cfg.streams.toNat)
      (Fin cfg.streams.toNat → Fleet.Gate HandshakeState ρ SetUpFailure σ)
      (Fin cfg.streams.toNat × Fleet.GateAction HandshakeAction ρ SetUpFailure α) ω where
  machine := Fleet.machine (session sha256 t token drops cfg sessionId M)
  handles := (stagedTasks M event exit hquiet).handles
  event := event
  ended s i := stageExit exit (s i).stage
  ended_step := by
    intro s a s' o hstep i e he
    obtain ⟨c, o', hc, rfl, rfl⟩ := Fleet.step_cases hstep
    by_cases hi : i = a.1
    · subst hi
      rw [Function.update_self]
      rcases Fleet.gated_stage hc with ⟨hstage, -⟩ | ⟨b, hb⟩
      · rwa [hstage]
      · exact (staged_endsQuietly M event exit hquiet hb he).1
    · rwa [Function.update_of_ne hi]
  quiet := by
    intro s a s' o hstep i e he ob hob
    obtain ⟨c, o', hc, rfl, rfl⟩ := Fleet.step_cases hstep
    obtain ⟨ob', hmem, heq⟩ := List.mem_map.mp hob
    obtain ⟨rfl, rfl⟩ := Prod.mk.inj heq
    rcases Fleet.gated_stage hc with ⟨-, rfl⟩ | ⟨b, hb⟩
    · cases hmem
    · have hnil := (staged_endsQuietly M event exit hquiet hb he).2
      exact List.filterMap_eq_nil_iff.mp hnil ob' hmem
  mem_handles := (stagedTasks M event exit hquiet).mem_handles

variable {sha256 t token drops cfg sessionId M event exit} {hquiet : EndsQuietly M event exit}

/-- What is left of a run without its handshakes. -/
def withoutHandshakes
    (s : Pipe.State (Fin cfg.streams.toNat → Fleet.Gate HandshakeState ρ SetUpFailure σ)
      PacketEvent (EngineState (Fin cfg.streams.toNat))) :
    Pipe.State (Fin cfg.streams.toNat → Fleet.Stage ρ SetUpFailure σ) PacketEvent
      (EngineState (Fin cfg.streams.toNat)) :=
  ⟨fun i => (s.producer i).stage, s.channel, s.consumer⟩

variable {o : List (Pipe.Obs (Fin cfg.streams.toNat × ω) EngineObs)}
  {s : Pipe.State (Fin cfg.streams.toNat → Fleet.Gate HandshakeState ρ SetUpFailure σ)
    PacketEvent (EngineState (Fin cfg.streams.toNat))} {loop : LoopConfig}

/-- A run of the sessions is a run of streams that are set up at once. -/
theorem sessionTasks_reach
    (h : (runSystem (sessionTasks sha256 t token drops cfg sessionId M event exit hquiet)
      loop).machine.Reach o s) :
    (runSystem (stagedTasks M event exit hquiet) loop).machine.Reach o (withoutHandshakes s) := by
  refine StreamTasks.reach_of_steps (S := stagedTasks M event exit hquiet)
    (T := sessionTasks sha256 t token drops cfg sessionId M event exit hquiet)
    (fun s i => (s i).stage) rfl (fun {s a s' o} hstep => ?_) rfl rfl (fun _ _ => rfl) h
  obtain ⟨c, o', hc, rfl, rfl⟩ := Fleet.step_cases hstep
  have hupdate : (fun i => (Function.update s a.1 c i).stage) =
      Function.update (fun i => (s i).stage) a.1 c.stage :=
    funext fun i => Function.apply_update (fun _ => Fleet.Gate.stage) s a.1 c i
  rcases Fleet.gated_stage hc with ⟨hstage, rfl⟩ | ⟨b, hb⟩
  · refine .inl ⟨?_, rfl⟩
    rw [hupdate, hstage]
    exact Function.update_eq_self a.1 _
  · refine .inr ⟨(a.1, b), ?_⟩
    rw [hupdate]
    exact congrArg (Option.map _) hb

theorem clientEnd_of_isOk {streamId : UInt32} {spec : StreamRunSpec} {d : HandshakeState}
    (h : (clientEnd sha256 sessionId streamId spec d).isOk = true) :
    clientEnd sha256 sessionId streamId spec d = .ok () := by
  cases hend : clientEnd sha256 sessionId streamId spec d with
  | ok _ => rfl
  | error e =>
    rw [hend] at h
    cases h

variable (sha256 t token cfg sessionId M event exit hquiet o s)

/-- What is known of a run with handshakes. -/
structure RunAuthorized (started : ℕ) : Prop where
  /-- It is a run of streams that are set up at once. -/
  run : (runSystem (stagedTasks M event exit hquiet) (cfg.loopConfig started)).machine.Reach o
    (withoutHandshakes s)
  /-- A stream that is in its loop was accepted, and nothing of its handshake is unread. -/
  settled : ∀ i d p c, s.producer i = .running d p c → SameToken sha256 token cfg.token ∧
    d.dropped = false ∧ HandshakeSettled sha256 t token sessionId (UInt32.ofNat i)
      (cfg.streamSpec sessionId i) d
  returned : s.consumer.pc = .returned (.ok ()) → ∀ i, ∃ d p c, s.producer i = .running d p c
  /-- With another token, no stream does anything. -/
  refused : ¬SameToken sha256 token cfg.token → Pipe.produced o = []

variable {sha256 t token cfg sessionId M event exit hquiet o s}

theorem sessions_authorized {started : ℕ}
    (h : (runSystem (sessionTasks sha256 t token drops cfg sessionId M event exit hquiet)
      (cfg.loopConfig started)).machine.Reach o s) :
    RunAuthorized sha256 t token cfg sessionId M event exit hquiet o s started := by
  have hgate := fun i => Fleet.gated_reach (Fleet.reach_part (Pipe.producer_reach h) i)
  have hsettled : ∀ i d p c, s.producer i = .running d p c → SameToken sha256 token cfg.token ∧
      d.dropped = false ∧ HandshakeSettled sha256 t token sessionId (UInt32.ofNat i)
        (cfg.streamSpec sessionId i) d := by
    intro i d p c hi
    have hgate := hgate i
    rw [hi] at hgate
    obtain ⟨hready, ⟨u, hu⟩, -⟩ := hgate
    have hok := clientEnd_of_isOk hready
    have hsettled := handshakeSettled_of_clientEnd (handshakeSound_reach hu) (by rw [hok]; nofun)
    have hsame := hsettled.client.mp hok
    exact ⟨hsame, Bool.eq_false_of_not_eq_true fun hd => hsettled.dropped hd hsame, hsettled⟩
  refine ⟨sessionTasks_reach h, hsettled, fun hpc i => ?_, fun htoken => ?_⟩
  · obtain ⟨-, ends, hends, hresult⟩ := returned_cases h hpc
    have hended : stageExit exit (s.producer i).stage = some .returned :=
      (joinHandles_ends hends).mp hresult.symm i
    cases hs : s.producer i with
    | opening d =>
      rw [hs] at hended
      cases hended
    | failed e =>
      rw [hs] at hended
      exact absurd (Option.some.inj hended) e.2
    | running d p c => exact ⟨d, p, c, rfl⟩
  · have hpart : ∀ i, Fleet.part i (Pipe.produced o) = [] := by
      intro i
      have hgate := hgate i
      cases hs : s.producer i with
      | opening d =>
        rw [hs] at hgate
        exact hgate.1
      | failed e =>
        rw [hs] at hgate
        exact hgate
      | running d p c => exact absurd (hsettled i d p c hs).1 htoken
    refine List.eq_nil_iff_forall_not_mem.mpr fun ob hob => ?_
    have hmem : ob.2 ∈ Fleet.part ob.1 (Pipe.produced o) :=
      List.mem_filterMap.mpr ⟨ob, hob, if_pos rfl⟩
    rw [hpart] at hmem
    cases hmem

end Sessions

/-! ## TCP and QUIC -/

section Transports

variable (sha256 : List UInt8 → Digest) (token : Option String) (cfg : RunConfig)
  (sessionId : UInt64)

/-- The TCP streams of a run, each from its connection on. What the server has written arrives. -/
def tcpSessions :=
  sessionTasks sha256 tcpTexts token false cfg sessionId (tcpStreams cfg sessionId)
    TcpSystemObs.event? (fun s => s.client.pc.exit) (tcp_endsQuietly cfg sessionId)

/-- The QUIC streams of a run, each from its connection on, which `run_quic_server` drops when its
handler has failed. -/
def quicSessions :=
  sessionTasks sha256 quicTexts token true cfg sessionId (quicStreams cfg sessionId)
    QuicEchoObs.event? QuicTaskState.exit (quic_endsQuietly cfg sessionId)

/-- In every run over TCP, and in every run over QUIC, in which the streams do their handshakes over
their connections, in whatever pieces these carry the frames, and whatever the engine and the
streams do in between : apart from the handshakes it is a run of streams that are set up at once. A
stream is in its loop only if the server has the client's token or none, has accepted the stream,
and nothing that was written before is unread. If `run_benchmark` has returned `Ok` then all streams
have been accepted, and with another token no stream has sent anything. -/
theorem sessionRun_authorized (started : ℕ) :
    (∀ {o s}, (runSystem (tcpSessions sha256 token cfg sessionId)
        (cfg.loopConfig started)).machine.Reach o s →
      RunAuthorized sha256 tcpTexts token cfg sessionId (tcpStreams cfg sessionId)
        TcpSystemObs.event? (fun s => s.client.pc.exit) (tcp_endsQuietly cfg sessionId) o s
        started) ∧
    ∀ {o s}, (runSystem (quicSessions sha256 token cfg sessionId)
        (cfg.loopConfig started)).machine.Reach o s →
      RunAuthorized sha256 quicTexts token cfg sessionId (quicStreams cfg sessionId)
        QuicEchoObs.event? QuicTaskState.exit (quic_endsQuietly cfg sessionId) o s started :=
  ⟨sessions_authorized, sessions_authorized⟩

end Transports

/-- One stream with a token. -/
def secretStream : RunConfig :=
  { oneStream with token := some "secret" }

/-- The stream does its handshake, has its duration behind it, ends its phases and returns. -/
def oneSessionRun : List (Pipe.Action (Fin 1 × Fleet.GateAction HandshakeAction (ℕ × ℕ) SetUpFailure
    TcpSystemAction) (EngineAction (Fin 1))) :=
  let talk := [.send true 9, .deliver true 7, .send true 158, .deliver true 160, .send false 3,
    .deliver false 2, .send false 15, .deliver false 16]
  [talk.map fun a => .produce (onlyStream, .before (.talk a)),
    [.produce (onlyStream, .enter (0, 0))],
    List.replicate 2 (.produce (onlyStream, .step (.client (.tick 750000010)))),
    [.recv, .own (.join onlyStream .returned), .own .finish]].flatten

theorem oneSessionRun_exec :
    ((runSystem (tcpSessions secretHash (some "secret") secretStream 7)
        (secretStream.loopConfig 0)).machine.exec
      (runSystem (tcpSessions secretHash (some "secret") secretStream 7)
        (secretStream.loopConfig 0)).machine.init oneSessionRun).map
        (fun r => r.1.consumer.pc.isOk) = some true := by
  decide +kernel

theorem sessionRun_authorized_oneSession : ∃ o s,
    (runSystem (tcpSessions secretHash (some "secret") secretStream 7)
      (secretStream.loopConfig 0)).machine.Reach o s ∧
    s.consumer.pc = .returned (.ok ()) ∧
    RunAuthorized secretHash tcpTexts (some "secret") secretStream 7 (tcpStreams secretStream 7)
      TcpSystemObs.event? (fun s => s.client.pc.exit) (tcp_endsQuietly secretStream 7) o s 0 := by
  obtain ⟨⟨s, o⟩, hexec, hpc⟩ := Option.map_eq_some_iff.mp oneSessionRun_exec
  have hreach := Machine.reach_exec hexec
  exact ⟨o, s, hreach, EnginePc.isOk_iff.mp hpc,
    (sessionRun_authorized secretHash (some "secret") secretStream 7 0).1 hreach⟩

end Ipfusch
