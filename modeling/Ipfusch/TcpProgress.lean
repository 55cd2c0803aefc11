import Ipfusch.TcpSystem

/-!
# TCP streams come to an end

The sender loop, the reader task and the server's loop wait for each other through two byte streams,
and the sockets between them hold a bounded number of bytes.

`tcpSystem_drains` : whatever the bounds, the three never block each other. In a bounded number of
steps, all that was written is read, echoed and acknowledged. `tcpSystem_returns` : once the clock
is behind the drain deadline and the time of the next packet, for which the loop may sleep,
`run_stream_tcp` returns after a bounded number of steps.
-/

namespace Ipfusch

/-! ## The server -/

/-- The work that is left for the bytes that the server holds. -/
def EchoPc.work : EchoPc → ℕ
  | .header got => 4 * got.length + 1
  | .payload _ _ got _ => 4 * got.length + 150
  | .echo left => 3 * left.length + 2
  | .closed _ | .failed _ => 0

/-- What the server holds is less than the loop reads at once, and is no packet if the stream has
ended. -/
def EchoPc.Sound : EchoPc → Prop
  | .header got => got.length ≤ dataHeaderSize
  | .payload h _ got _ => got.length ≤ h.payloadLen.toNat
  | .echo _ => True
  | .closed got => Packet.wire.decode got = none
  | .failed _ => False

/-- What a step does to the work that is left. -/
theorem echoStep_work {e e' : EchoPc} {a : EchoAction} {o : List EchoObs}
    (h : echoStep e a = some (e', o)) :
    match a with
    | .read chunk => e'.work = e.work + 4 * chunk.length ∧ bytesWritten o = []
    | .write n => e'.work + 3 * n = e.work ∧ (bytesWritten o).length = n
    | .next | .eof => e'.work < e.work ∧ bytesWritten o = [] := by
  cases e with
  | header got =>
    cases a with
    | read chunk =>
      unfold echoStep at h
      dsimp only at h
      split_ifs at h
      obtain ⟨rfl, rfl⟩ := Prod.mk.inj (Option.some.inj h)
      refine ⟨?_, rfl⟩
      simp only [EchoPc.work, List.length_append]
      omega
    | write n => cases h
    | next =>
      unfold echoStep at h
      dsimp only at h
      split_ifs at h with hlen
      have hsize : got.length = 40 := hlen
      split at h
      · obtain ⟨rfl, rfl⟩ := Prod.mk.inj (Option.some.inj h)
        exact ⟨Nat.succ_pos _, rfl⟩
      · split_ifs at h <;> obtain ⟨rfl, rfl⟩ := Prod.mk.inj (Option.some.inj h) <;>
          refine ⟨?_, rfl⟩ <;> simp only [EchoPc.work, List.length_nil] <;> omega
    | eof =>
      unfold echoStep at h
      dsimp only at h
      split_ifs at h
      obtain ⟨rfl, rfl⟩ := Prod.mk.inj (Option.some.inj h)
      exact ⟨Nat.succ_pos _, rfl⟩
  | payload header headerBuf got hd =>
    cases a with
    | read chunk =>
      unfold echoStep at h
      dsimp only at h
      split_ifs at h
      obtain ⟨rfl, rfl⟩ := Prod.mk.inj (Option.some.inj h)
      refine ⟨?_, rfl⟩
      simp only [EchoPc.work, List.length_append]
      omega
    | write n => cases h
    | next =>
      unfold echoStep at h
      dsimp only at h
      split_ifs at h
      obtain ⟨rfl, rfl⟩ := Prod.mk.inj (Option.some.inj h)
      have hsize : headerBuf.length = 40 := DataHeader.length_of_decode hd
      refine ⟨?_, rfl⟩
      simp only [EchoPc.work]
      omega
    | eof =>
      unfold echoStep at h
      dsimp only at h
      split_ifs at h
      obtain ⟨rfl, rfl⟩ := Prod.mk.inj (Option.some.inj h)
      exact ⟨Nat.succ_pos _, rfl⟩
  | echo left =>
    cases a with
    | write n =>
      unfold echoStep at h
      dsimp only at h
      split_ifs at h with hn
      obtain ⟨rfl, rfl⟩ := Prod.mk.inj (Option.some.inj h)
      refine ⟨?_, ?_⟩
      · simp only [EchoPc.work, List.length_drop]
        omega
      · simp [bytesWritten, hn]
    | next =>
      unfold echoStep at h
      dsimp only at h
      split_ifs at h with hleft
      obtain ⟨rfl, rfl⟩ := Prod.mk.inj (Option.some.inj h)
      refine ⟨?_, rfl⟩
      simp [EchoPc.work, hleft]
    | read _ | eof => cases h
  | closed _ | failed _ => cases a <;> cases h

/-- A sound server stays so, if it does not come to a header that is not decoded. -/
theorem EchoPc.Sound.step {e e' : EchoPc} (h : e.Sound) {a : EchoAction} {o : List EchoObs}
    (hs : echoStep e a = some (e', o))
    (hdecode : e.got.length = dataHeaderSize → ∃ header, DataHeader.decode e.got = .ok header) :
    e'.Sound := by
  cases e with
  | header got =>
    cases a with
    | read chunk =>
      unfold echoStep at hs
      dsimp only at hs
      split_ifs at hs with hneed
      obtain ⟨rfl, -⟩ := Prod.mk.inj (Option.some.inj hs)
      have hle : got.length ≤ dataHeaderSize := h
      rw [EchoPc.need] at hneed
      show (got ++ chunk).length ≤ dataHeaderSize
      rw [List.length_append]
      omega
    | write n => cases hs
    | next =>
      unfold echoStep at hs
      dsimp only at hs
      split_ifs at hs with hlen
      obtain ⟨header, hheader⟩ := hdecode hlen
      split at hs
      · rename_i hd
        cases hheader.symm.trans hd
      · split_ifs at hs <;> obtain ⟨rfl, -⟩ := Prod.mk.inj (Option.some.inj hs)
        · exact Nat.zero_le _
        · trivial
    | eof =>
      have hneed : 0 < (EchoPc.header got).need := by
        unfold echoStep at hs
        dsimp only at hs
        split_ifs at hs with hlt
        exact Nat.sub_pos_of_lt hlt
      unfold echoStep at hs
      dsimp only at hs
      split_ifs at hs
      obtain ⟨rfl, -⟩ := Prod.mk.inj (Option.some.inj hs)
      exact EchoPc.decode_got hneed
  | payload header headerBuf got hd =>
    cases a with
    | read chunk =>
      unfold echoStep at hs
      dsimp only at hs
      split_ifs at hs with hneed
      obtain ⟨rfl, -⟩ := Prod.mk.inj (Option.some.inj hs)
      have hle : got.length ≤ header.payloadLen.toNat := h
      rw [EchoPc.need] at hneed
      show (got ++ chunk).length ≤ header.payloadLen.toNat
      rw [List.length_append]
      omega
    | write n => cases hs
    | next =>
      unfold echoStep at hs
      dsimp only at hs
      split_ifs at hs
      obtain ⟨rfl, -⟩ := Prod.mk.inj (Option.some.inj hs)
      trivial
    | eof =>
      unfold echoStep at hs
      dsimp only at hs
      split_ifs at hs with hlt
      obtain ⟨rfl, -⟩ := Prod.mk.inj (Option.some.inj hs)
      exact EchoPc.decode_got (s := .payload header headerBuf got hd) (Nat.sub_pos_of_lt hlt)
  | echo left =>
    cases a with
    | write n =>
      unfold echoStep at hs
      dsimp only at hs
      split_ifs at hs
      obtain ⟨rfl, -⟩ := Prod.mk.inj (Option.some.inj hs)
      trivial
    | next =>
      unfold echoStep at hs
      dsimp only at hs
      split_ifs at hs
      obtain ⟨rfl, -⟩ := Prod.mk.inj (Option.some.inj hs)
      exact Nat.zero_le _
    | read _ | eof => cases hs
  | closed _ | failed _ => cases a <;> cases hs

/-- The loop is left at the end of the stream only. -/
theorem echoStep_closed {e : EchoPc} {a : EchoAction} {got : List UInt8} {o : List EchoObs}
    (h : echoStep e a = some (.closed got, o)) : a = .eof := by
  cases a with
  | eof => rfl
  | read chunk =>
    cases e <;> first | cases h | (unfold echoStep at h; dsimp only at h; split_ifs at h; cases h)
  | write n =>
    cases e <;> first | cases h | (unfold echoStep at h; dsimp only at h; split_ifs at h; cases h)
  | next =>
    cases e with
    | header got =>
      unfold echoStep at h
      dsimp only at h
      split_ifs at h
      split at h
      · cases h
      · split_ifs at h <;> cases h
    | payload _ _ _ _ | echo _ =>
      unfold echoStep at h
      dsimp only at h
      split_ifs at h
      cases h
    | closed _ | failed _ => cases h

/-- A sound server goes on, has bytes to write, or waits for bytes. -/
theorem EchoPc.Sound.progress {e : EchoPc} (h : e.Sound) :
    (echoStep e .next).isSome ∨ (e.left ≠ [] ∧ (echoStep e (.write 1)).isSome) ∨
      Packet.wire.decode e.got = none ∧ e.left = [] ∧
        ((∀ b, (echoStep e (.read [b])).isSome) ∨ ∃ got, e = .closed got) := by
  cases e with
  | header got =>
    have hle : got.length ≤ dataHeaderSize := h
    by_cases hlen : got.length = dataHeaderSize
    · refine .inl ?_
      unfold echoStep
      dsimp only
      rw [if_pos hlen]
      split
      · rfl
      · split_ifs <;> rfl
    · have hneed : 0 < (EchoPc.header got).need := Nat.sub_pos_of_lt (lt_of_le_of_ne hle hlen)
      refine .inr (.inr ⟨EchoPc.decode_got hneed, rfl, .inl fun b => ?_⟩)
      unfold echoStep
      dsimp only
      rw [if_pos (show [b].length ≤ (EchoPc.header got).need from hneed)]
      rfl
  | payload header headerBuf got hd =>
    have hle : got.length ≤ header.payloadLen.toNat := h
    by_cases hlen : got.length = header.payloadLen.toNat
    · refine .inl ?_
      unfold echoStep
      dsimp only
      rw [dif_pos hlen]
      rfl
    · have hneed : 0 < (EchoPc.payload header headerBuf got hd).need :=
        Nat.sub_pos_of_lt (lt_of_le_of_ne hle hlen)
      refine .inr (.inr ⟨EchoPc.decode_got hneed, rfl, .inl fun b => ?_⟩)
      unfold echoStep
      dsimp only
      rw [if_pos (show [b].length ≤ (EchoPc.payload header headerBuf got hd).need from hneed)]
      rfl
  | echo left =>
    by_cases hleft : left = []
    · refine .inl ?_
      unfold echoStep
      dsimp only
      rw [if_pos hleft]
      rfl
    · refine .inr (.inl ⟨hleft, ?_⟩)
      unfold echoStep
      dsimp only
      rw [if_pos (show 1 ≤ left.length from List.length_pos_iff.mpr hleft)]
      rfl
  | closed got => exact .inr (.inr ⟨h, rfl, .inr ⟨got, rfl⟩⟩)
  | failed got => exact h.elim

/-! ## The bytes in the system -/

/-- The front of some packets that is as long as a header is one. `encode` puts the header of a
packet first. -/
theorem decode_front {encode : Packet → List UInt8} (tail : Packet → List UInt8)
    (hencode : ∀ p, encode p = p.header.encode ++ tail p) {got rest : List UInt8}
    {todo : List Packet} (h : got ++ rest = todo.flatMap encode)
    (hlen : got.length = dataHeaderSize) : ∃ header, DataHeader.decode got = .ok header := by
  cases todo with
  | nil =>
    rw [(List.append_eq_nil_iff.mp h).1] at hlen
    exact absurd hlen (by decide)
  | cons p todo =>
    rw [List.flatMap_cons, hencode, List.append_assoc] at h
    have hgot := (List.append_inj h (by rw [hlen, DataHeader.length_encode])).1
    exact ⟨p.header, DataHeader.decode_eq_ok_iff.mpr ⟨hgot, p.magic, p.version⟩⟩

section System

variable {spec : StreamRunSpec} {hfit : spec.payloadBytes.toNat < 2 ^ 32} {start nextSend : ℕ}
  {t o : List TcpSystemObs} {s s' : TcpSystemState} {a : TcpSystemAction}

/-- The tasks go on as long as there is something to do. -/
structure Working (s : TcpSystemState) : Prop where
  server : s.server.Sound
  closed : ∀ got, s.server = .closed got → s.client.pc.ended = true ∧ s.toServer = []
  reader : s.readerDone = false
  ack : s.ack.length ≤ dataHeaderSize

/-- What the server has of a header is one. -/
theorem Linked.decode_got (h : Linked hfit t s) (hlen : s.server.got.length = dataHeaderSize) :
    ∃ header, DataHeader.decode s.server.got = .ok header := by
  obtain ⟨todo, -, hbytes⟩ := h.toServer
  rw [List.append_assoc] at hbytes
  exact decode_front Packet.payload (fun _ => rfl) hbytes hlen

/-- What the reader task has of a header is one. -/
theorem Linked.decode_ack (h : Linked hfit t s) (hlen : s.ack.length = dataHeaderSize) :
    ∃ header, DataHeader.decode s.ack = .ok header := by
  obtain ⟨acked, todo, -, -, hbytes⟩ := h.toClient
  rw [List.append_assoc, List.flatMap_map] at hbytes
  refine decode_front (fun _ => []) (fun p => ?_) hbytes hlen
  rw [List.append_nil, DataHeader.encode_eq_wire]

/-- The client that has ended stays so. -/
theorem ended_tcpStep {c c' : TcpState} {b : TcpAction} {o : List TcpObs}
    (h : tcpStep spec start c b = some (c', o)) (hended : c.pc.ended = true) :
    c'.pc.ended = true := by
  unfold tcpStep at h
  cases b with
  | tick now =>
    unfold tcpTick at h
    cases hpc : c.pc <;> simp only [hpc, reduceCtorEq] at h hended <;> cases hended
  | deliver seq recvMonoNs =>
    obtain ⟨rfl, -⟩ := Prod.mk.inj (Option.some.inj h)
    exact hended
  | elapsed =>
    dsimp only at h
    split_ifs at h with hpc
    rw [hpc] at hended
    cases hended
  | writeFails =>
    dsimp only at h
    split at h
    · obtain ⟨rfl, -⟩ := Prod.mk.inj (Option.some.inj h)
      rfl
    · cases h
  | flush seq =>
    dsimp only at h
    split at h
    · rename_i hpc _
      rw [hpc] at hended
      cases hended
    · cases h

/-- The server moves on, and its loop is not left. -/
theorem Working.onServer (h : Working s) (hlinked : Linked hfit t s) {b : EchoAction} {e : EchoPc}
    {o : List EchoObs} (hs : echoStep s.server b = some (e, o)) (hb : b ≠ .eof)
    {toServer toClient : List UInt8} :
    Working { s with server := e, toServer := toServer, toClient := toClient } :=
  ⟨h.server.step hs hlinked.decode_got,
    fun got (he : e = .closed got) => absurd (echoStep_closed (he ▸ hs)) hb, h.reader, h.ack⟩

/-- Each step keeps the tasks working. -/
theorem Working.step (h : Working s) (hlinked : Linked hfit t s)
    (hs : tcpSystemStep spec start s a = some (s', o)) : Working s' := by
  unfold tcpSystemStep at hs
  cases a with
  | client b =>
    dsimp only at hs
    split_ifs at hs
    obtain ⟨⟨c, o'⟩, hstep, hs⟩ := Option.map_eq_some_iff.mp hs
    obtain ⟨rfl, -⟩ := Prod.mk.inj hs
    have hclosed : ∀ got, s.server = .closed got → c.pc.ended = true ∧ s.toServer = [] :=
      fun got hgot => ⟨ended_tcpStep hstep (h.closed got hgot).1, (h.closed got hgot).2⟩
    unfold TcpSystemState.resume
    split <;> exact ⟨h.server, hclosed, h.reader, h.ack⟩
  | send n =>
    dsimp only at hs
    split at hs
    · rename_i m hpc
      split_ifs at hs
      obtain ⟨rfl, -⟩ := Prod.mk.inj (Option.some.inj hs)
      refine ⟨h.server, fun got hgot => ?_, h.reader, h.ack⟩
      have hended := (h.closed got hgot).1
      rw [hpc] at hended
      cases hended
    · cases hs
  | serverRead n =>
    dsimp only at hs
    split_ifs at hs
    obtain ⟨e, o', hstep, rfl, -⟩ := onServer_eq_some hs
    exact h.onServer hlinked hstep nofun
  | serverWrite n =>
    obtain ⟨e, o', hstep, rfl, -⟩ := onServer_eq_some (a := .write n) hs
    exact h.onServer hlinked hstep nofun
  | serverNext =>
    obtain ⟨e, o', hstep, rfl, -⟩ := onServer_eq_some (a := .next) hs
    exact h.onServer hlinked hstep nofun
  | serverEof =>
    dsimp only at hs
    split_ifs at hs with hguard
    obtain ⟨e, o', hstep, rfl, -⟩ := onServer_eq_some hs
    exact ⟨h.server.step hstep hlinked.decode_got, fun _ _ => hguard, h.reader, h.ack⟩
  | readerRead n =>
    dsimp only at hs
    split_ifs at hs with hguard
    obtain ⟨rfl, -⟩ := Prod.mk.inj (Option.some.inj hs)
    refine ⟨h.server, h.closed, h.reader, ?_⟩
    have hack := h.ack
    dsimp only
    rw [List.length_append, List.length_take]
    omega
  | readerNext now =>
    dsimp only at hs
    split_ifs at hs with hguard
    obtain ⟨header, hheader⟩ := hlinked.decode_ack hguard.2
    rw [hheader] at hs
    obtain ⟨rfl, -⟩ := Prod.mk.inj (Option.some.inj hs)
    exact ⟨h.server, h.closed, h.reader, Nat.zero_le _⟩

theorem working_reach (hfit : spec.payloadBytes.toNat < 2 ^ 32)
    (h : (tcpSystem spec start nextSend).Reach t s) : Working s :=
  h.invariant (I := fun _ s => Working s)
    ⟨Nat.zero_le _, fun got (hgot : .header [] = EchoPc.closed got) => (nomatch hgot), rfl,
      Nat.zero_le _⟩
    fun hr hworking hs => hworking.step (linked_reach hfit hr) hs

/-! ## The work -/

/-- A step that does something, and does not move zero bytes. -/
def TcpSystemAction.moves : TcpSystemAction → Bool
  | .send n | .serverRead n | .serverWrite n | .readerRead n => 0 < n
  | .client _ | .serverNext | .serverEof | .readerNext _ => true

/-- The work that is left for the bytes in the system, and for the acknowledgements in the
channel. -/
def TcpSystemState.bytesWork (s : TcpSystemState) : ℕ :=
  6 * s.unsent.length + 5 * s.toServer.length + s.server.work + 2 * s.toClient.length +
    s.ack.length + s.client.acks.length

/-- A step of a write, of the server or of the reader task lowers the work that is left for the
bytes. The variables of the sender loop stay as they are, and no event is sent. -/
theorem bytesWork_step (hlinked : Linked hfit t s)
    (hs : tcpSystemStep spec start s a = some (s', o)) (ha : ∀ b, a ≠ .client b) :
    s'.bytesWork + (if a.moves = true then 1 else 0) ≤ s.bytesWork ∧
      s'.client.pc = s.client.pc ∧ s'.client.pending = s.client.pending ∧
        s'.client.nextSend = s.client.nextSend ∧ events (clientTrace o) = [] := by
  unfold tcpSystemStep at hs
  cases a with
  | client b => exact absurd rfl (ha b)
  | send n =>
    dsimp only at hs
    split at hs
    · split_ifs at hs with hn
      obtain ⟨rfl, rfl⟩ := Prod.mk.inj (Option.some.inj hs)
      refine ⟨?_, rfl, rfl, rfl, rfl⟩
      simp only [TcpSystemState.bytesWork, TcpSystemAction.moves, List.length_drop,
        List.length_append, List.length_take, decide_eq_true_eq]
      split_ifs <;> omega
    · cases hs
  | serverRead n =>
    dsimp only at hs
    split_ifs at hs with hn
    obtain ⟨e, o', hstep, rfl, rfl⟩ := onServer_eq_some hs
    obtain ⟨hwork, hwritten⟩ := echoStep_work hstep
    refine ⟨?_, rfl, rfl, rfl, congrArg events (clientTrace_append_server [] o')⟩
    simp only [TcpSystemState.bytesWork, TcpSystemAction.moves, hwork, hwritten, List.length_drop,
      List.length_append, List.length_take, List.length_nil, decide_eq_true_eq]
    split_ifs <;> omega
  | serverWrite n =>
    obtain ⟨e, o', hstep, rfl, rfl⟩ := onServer_eq_some (a := .write n) hs
    obtain ⟨hwork, hwritten⟩ := echoStep_work hstep
    refine ⟨?_, rfl, rfl, rfl, congrArg events (clientTrace_append_server [] o')⟩
    simp only [TcpSystemState.bytesWork, TcpSystemAction.moves, hwritten, List.length_append,
      decide_eq_true_eq]
    split_ifs <;> omega
  | serverNext =>
    obtain ⟨e, o', hstep, rfl, rfl⟩ := onServer_eq_some (a := .next) hs
    obtain ⟨hwork, hwritten⟩ := echoStep_work hstep
    refine ⟨?_, rfl, rfl, rfl, congrArg events (clientTrace_append_server [] o')⟩
    simp only [TcpSystemState.bytesWork, TcpSystemAction.moves, hwritten, List.append_nil, if_true]
    omega
  | serverEof =>
    dsimp only at hs
    split_ifs at hs
    obtain ⟨e, o', hstep, rfl, rfl⟩ := onServer_eq_some hs
    obtain ⟨hwork, hwritten⟩ := echoStep_work hstep
    refine ⟨?_, rfl, rfl, rfl, congrArg events (clientTrace_append_server [] o')⟩
    simp only [TcpSystemState.bytesWork, TcpSystemAction.moves, hwritten, List.append_nil, if_true]
    omega
  | readerRead n =>
    dsimp only at hs
    split_ifs at hs with hguard
    obtain ⟨rfl, rfl⟩ := Prod.mk.inj (Option.some.inj hs)
    refine ⟨?_, rfl, rfl, rfl, rfl⟩
    simp only [TcpSystemState.bytesWork, TcpSystemAction.moves, List.length_drop,
      List.length_append, List.length_take, decide_eq_true_eq]
    split_ifs <;> omega
  | readerNext now =>
    dsimp only at hs
    split_ifs at hs with hguard
    obtain ⟨header, hheader⟩ := hlinked.decode_ack hguard.2
    rw [hheader] at hs
    obtain ⟨rfl, rfl⟩ := Prod.mk.inj (Option.some.inj hs)
    refine ⟨?_, rfl, rfl, rfl, rfl⟩
    have hlen : s.ack.length = 40 := hguard.2
    simp only [TcpSystemState.bytesWork, TcpSystemAction.moves, List.length_append,
      List.length_singleton, List.length_nil, if_true, hlen]
    omega

/-- The work that is left of the sender loop once its clock is behind the drain deadline. -/
def Pc.rank (spec : StreamRunSpec) : Pc → ℕ
  | .done | .failed _ | .panicked => 0
  | .flush => 1
  | .drain => 2
  | .checkEnd => 3
  | .acks => 4
  | .head => 5
  | .sleep | .recv => 6
  | .insert _ => 7
  | .write _ => 8
  | .stamp => 9 + 6 * (dataHeaderSize + spec.payloadBytes.toNat)
  | .paceSleep _ => 10 + 6 * (dataHeaderSize + spec.payloadBytes.toNat)
  | .pace => 11 + 6 * (dataHeaderSize + spec.payloadBytes.toNat)
  | .window => 12 + 6 * (dataHeaderSize + spec.payloadBytes.toNat)

/-- The work that is left of the sender loop and for what it has to take. -/
def TcpState.work (spec : StreamRunSpec) (c : TcpState) : ℕ :=
  c.pc.rank spec + c.pending.entries.length + c.acks.length

/-- The work for a frame that is written in the next step. -/
def Pc.frameWork (spec : StreamRunSpec) : Pc → ℕ
  | .stamp => 6 * (dataHeaderSize + spec.payloadBytes.toNat)
  | _ => 0

/-- The instant from which on the loop does not wait for acknowledgements. -/
def drainAt (spec : StreamRunSpec) (start : ℕ) : ℕ :=
  start + spec.warmup + spec.duration + spec.timeout

/-- An entry is taken out. -/
theorem length_entries_erase_lt {pending : AList fun _ : ℕ => ℕ × Bool} {k : ℕ} {entry : ℕ × Bool}
    (h : pending.lookup k = some entry) :
    (pending.erase k).entries.length < pending.entries.length := by
  have hmem : k ∈ pending.keys := AList.lookup_isSome.mp (by rw [h]; rfl)
  have hlength : ∀ l : AList fun _ : ℕ => ℕ × Bool, l.keys.length = l.entries.length :=
    fun l => List.length_map _
  rw [← hlength, ← hlength, AList.keys_erase, List.length_erase_of_mem hmem]
  exact Nat.sub_lt (List.length_pos_of_mem hmem) Nat.one_pos

/-- An acknowledgement is taken. -/
theorem takeAck_work {c c' : TcpState} {o : List TcpObs} (h : takeAck spec c = some (c', o)) :
    c'.pc = c.pc ∧ c'.pending.entries.length + c'.acks.length <
      c.pending.entries.length + c.acks.length := by
  obtain ⟨seq, recvMonoNs, acks, hacks, ⟨entry, -, rfl, -⟩ | ⟨-, rfl, -⟩⟩ := takeAck_cases h
  · have hle := length_entries_erase_le c.pending seq
    refine ⟨rfl, ?_⟩
    dsimp only
    rw [hacks, List.length_cons]
    omega
  · refine ⟨rfl, ?_⟩
    dsimp only
    rw [hacks, List.length_cons]
    omega

/-- A step of the loop behind the drain deadline. -/
theorem tcpTick_work {c c' : TcpState} {now : ℕ} {o : List TcpObs}
    (h : tcpTick spec start c now = some (c', o)) (hnow : drainAt spec start ≤ now) :
    c'.work spec + c.pc.frameWork spec < c.work spec := by
  unfold tcpTick at h
  unfold drainAt at hnow
  dsimp only at h
  unfold TcpState.work
  cases hpc : c.pc with
  | head =>
    simp only [hpc] at h
    split_ifs at h <;> obtain ⟨rfl, -⟩ := Prod.mk.inj (Option.some.inj h) <;>
      simp only [Pc.rank, Pc.frameWork] <;> omega
  | acks =>
    simp only [hpc] at h
    split at h
    · rename_i r htake
      obtain rfl := Option.some.inj h
      obtain ⟨hpc', hlt⟩ := takeAck_work htake
      rw [hpc', hpc]
      simp only [Pc.rank, Pc.frameWork]
      omega
    · obtain ⟨rfl, -⟩ := Prod.mk.inj (Option.some.inj h)
      simp only [Pc.rank, Pc.frameWork]
      omega
  | checkEnd | drain =>
    simp only [hpc] at h
    rw [if_pos (by omega)] at h
    obtain ⟨rfl, -⟩ := Prod.mk.inj (Option.some.inj h)
    simp only [Pc.rank, Pc.frameWork]
    omega
  | sleep | write _ =>
    simp only [hpc] at h
    obtain ⟨rfl, -⟩ := Prod.mk.inj (Option.some.inj h)
    simp only [Pc.rank, Pc.frameWork]
    omega
  | paceSleep _ =>
    simp only [hpc] at h
    split_ifs at h
    obtain ⟨rfl, -⟩ := Prod.mk.inj (Option.some.inj h)
    simp only [Pc.rank, Pc.frameWork]
    omega
  | window =>
    simp only [hpc] at h
    split_ifs at h <;> obtain ⟨rfl, -⟩ := Prod.mk.inj (Option.some.inj h) <;>
      simp only [Pc.rank, Pc.frameWork] <;> omega
  | recv =>
    simp only [hpc] at h
    obtain ⟨⟨c₁, o₁⟩, htake, heq⟩ := Option.map_eq_some_iff.mp h
    obtain ⟨rfl, -⟩ := Prod.mk.inj heq
    obtain ⟨-, hlt⟩ := takeAck_work htake
    simp only [Pc.rank, Pc.frameWork]
    omega
  | pace =>
    simp only [hpc] at h
    split at h
    · obtain ⟨rfl, -⟩ := Prod.mk.inj (Option.some.inj h)
      simp only [Pc.rank, Pc.frameWork]
      omega
    · split_ifs at h <;> obtain ⟨rfl, -⟩ := Prod.mk.inj (Option.some.inj h) <;>
        simp only [Pc.rank, Pc.frameWork] <;> omega
  | stamp =>
    simp only [hpc] at h
    split_ifs at h <;> obtain ⟨rfl, -⟩ := Prod.mk.inj (Option.some.inj h) <;>
      simp only [Pc.rank, Pc.frameWork] <;> omega
  | insert m =>
    simp only [hpc] at h
    obtain ⟨rfl, -⟩ := Prod.mk.inj (Option.some.inj h)
    have hle := length_entries_insert_le c.pending c.seq (m, decide (start + spec.warmup ≤ now))
    simp only [Pc.rank, Pc.frameWork]
    omega
  | flush =>
    simp only [hpc] at h
    split_ifs at h
    obtain ⟨rfl, -⟩ := Prod.mk.inj (Option.some.inj h)
    simp only [Pc.rank, Pc.frameWork]
    omega
  | done | failed _ | panicked => simp only [hpc, reduceCtorEq] at h

/-- A step of the loop with its clock behind the drain deadline. -/
theorem tcpStep_work {c c' : TcpState} {b : TcpAction} {o : List TcpObs}
    (h : tcpStep spec start c b = some (c', o)) (hb : ∀ seq recvMonoNs, b ≠ .deliver seq recvMonoNs)
    (hnow : ∀ now, b = .tick now → drainAt spec start ≤ now) :
    c'.work spec + c.pc.frameWork spec < c.work spec := by
  cases b with
  | tick now => exact tcpTick_work h (hnow now rfl)
  | deliver seq recvMonoNs => exact absurd rfl (hb seq recvMonoNs)
  | elapsed =>
    unfold tcpStep at h
    dsimp only at h
    split_ifs at h with hpc
    obtain ⟨rfl, -⟩ := Prod.mk.inj (Option.some.inj h)
    simp only [TcpState.work, hpc, Pc.rank, Pc.frameWork]
    omega
  | writeFails =>
    unfold tcpStep at h
    dsimp only at h
    split at h
    · rename_i m hpc
      obtain ⟨rfl, -⟩ := Prod.mk.inj (Option.some.inj h)
      simp only [TcpState.work, hpc, Pc.rank, Pc.frameWork]
      omega
    · cases h
  | flush seq =>
    unfold tcpStep at h
    dsimp only at h
    split at h
    · rename_i entry hpc hentry
      obtain ⟨rfl, -⟩ := Prod.mk.inj (Option.some.inj h)
      have hlt := length_entries_erase_lt hentry
      simp only [TcpState.work, hpc, Pc.rank, Pc.frameWork]
      omega
    · cases h

/-- The step into a write adds the work for its frame. -/
theorem bytesWork_resume (h : ZeroPayload spec s.frame) (c : TcpState) :
    (s.resume spec c).bytesWork + s.client.acks.length ≤
      s.bytesWork + c.acks.length + s.client.pc.frameWork spec := by
  unfold TcpSystemState.resume
  split
  · rename_i m hstamp _
    rw [hstamp]
    simp only [TcpSystemState.bytesWork, Pc.frameWork, fillFrame_eq h, List.length_append,
      DataHeader.length_encode, List.length_replicate]
    omega
  · simp only [TcpSystemState.bytesWork]
    omega

/-- The work that is left until `run_stream_tcp` returns, once its clock is behind the drain
deadline. -/
def TcpSystemState.work (spec : StreamRunSpec) (s : TcpSystemState) : ℕ :=
  s.client.pc.rank spec + s.client.pending.entries.length + s.bytesWork

/-- The sender loop's clock is at least at `time`. -/
def TcpSystemAction.late (time : ℕ) : TcpSystemAction → Bool
  | .client (.tick now) => time ≤ now
  | _ => true

theorem TcpSystemAction.late_mono {time time' : ℕ} (h : a.late time = true) (hle : time' ≤ time) :
    a.late time' = true := by
  cases a with
  | client b =>
    cases b with
    | tick now => exact decide_eq_true (hle.trans (of_decide_eq_true h))
    | elapsed | writeFails | flush _ | deliver _ _ => rfl
  | _ => rfl

/-- The sender loop's clock is at `time`. -/
def TcpSystemAction.atTime (time : ℕ) : TcpSystemAction → Bool
  | .client (.tick now) => now = time
  | _ => true

theorem TcpSystemAction.late_of_atTime {time : ℕ} (h : a.atTime time = true) :
    a.late time = true := by
  cases a with
  | client b =>
    cases b with
    | tick now => exact decide_eq_true (of_decide_eq_true h).ge
    | elapsed | writeFails | flush _ | deliver _ _ => rfl
  | _ => rfl

/-- Behind the drain deadline each step lowers the work that is left. -/
theorem work_step (hlinked : Linked hfit t s) (hs : tcpSystemStep spec start s a = some (s', o))
    (hlate : a.late (drainAt spec start) = true) :
    s'.work spec + (if a.moves = true then 1 else 0) ≤ s.work spec := by
  by_cases ha : ∃ b, a = .client b
  · obtain ⟨b, rfl⟩ := ha
    unfold tcpSystemStep at hs
    dsimp only at hs
    split_ifs at hs with hallow
    obtain ⟨⟨c, o'⟩, hstep, hs⟩ := Option.map_eq_some_iff.mp hs
    obtain ⟨rfl, -⟩ := Prod.mk.inj hs
    have hclient := tcpStep_work hstep
      (fun seq recvMonoNs hb => by subst hb; cases hallow)
      (fun now hb => by subst hb; exact of_decide_eq_true hlate)
    have hbytes := bytesWork_resume hlinked.zeroPayload c
    unfold TcpState.work at hclient
    simp only [TcpSystemState.work, TcpSystemState.client_resume, TcpSystemAction.moves, if_true]
    omega
  · obtain ⟨hbytes, hpc, hpending, -⟩ := bytesWork_step hlinked hs fun b hb => ha ⟨b, hb⟩
    unfold TcpSystemState.work
    rw [hpc, hpending]
    omega

/-- A step of the loop sends at most one event. -/
theorem length_events_le {c c' : TcpState} {o : List TcpObs} (h : TcpEffect spec c c' o) :
    (events o).length ≤ 1 := by
  cases h with
  | move _ _ _ _ _ _ | wrote _ _ _ | entered _ _ _ => exact Nat.zero_le 1
  | ack _ _ _ htake _ _ _ _ _ =>
    obtain ⟨_, _, _, -, ⟨_, -, -, rfl⟩ | ⟨-, -, rfl⟩⟩ := takeAck_cases htake
    · exact le_rfl
    · exact Nat.zero_le 1
  | flush _ _ _ _ => exact le_rfl

/-- Each event that is sent behind the drain deadline lowers the work that is left, too. -/
theorem work_events (hlinked : Linked hfit t s) (hs : tcpSystemStep spec start s a = some (s', o))
    (hlate : a.late (drainAt spec start) = true) :
    s'.work spec + (events (clientTrace o)).length ≤ s.work spec := by
  have hwork := work_step hlinked hs hlate
  by_cases ha : ∃ b, a = .client b
  · obtain ⟨b, rfl⟩ := ha
    unfold tcpSystemStep at hs
    dsimp only at hs
    split_ifs at hs with hallow
    obtain ⟨⟨c, o'⟩, hstep, hs⟩ := Option.map_eq_some_iff.mp hs
    obtain ⟨-, rfl⟩ := Prod.mk.inj hs
    have htrace : clientTrace (o'.map .client) = o' := clientTrace_append_client [] o'
    have hevents := length_events_le
      (tcpStep_effect hstep fun seq recvMonoNs hb => by subst hb; cases hallow)
    rw [htrace]
    exact (Nat.add_le_add_left hevents _).trans hwork
  · obtain ⟨-, -, -, -, hevents⟩ := bytesWork_step hlinked hs fun b hb => ha ⟨b, hb⟩
    rw [hevents]
    exact (Nat.le_add_right _ _).trans hwork

/-! ## Progress -/

/-- The sockets hold at most `c.1` bytes to the server and `c.2` bytes to the client. -/
def TcpSystemState.fits (c : ℕ × ℕ) (s : TcpSystemState) : TcpSystemAction → Bool
  | .send n => s.toServer.length + n ≤ c.1
  | .serverWrite n => s.toClient.length + n ≤ c.2
  | _ => true

/-- All that was written is acknowledged. -/
def AllAcked (t : List TcpSystemObs) (s : TcpSystemState) : Prop :=
  s.unsent = [] ∧ (acksDelivered (clientTrace t)).map Prod.fst = List.range' 1 s.client.seq

/-- If nothing is on its way and the server waits for bytes, then all is acknowledged. -/
theorem allAcked_of_empty (hfit : spec.payloadBytes.toNat < 2 ^ 32)
    (h : (tcpSystem spec start nextSend).Reach t s) (hunsent : s.unsent = [])
    (htoServer : s.toServer = []) (hgot : Packet.wire.decode s.server.got = none)
    (hleft : s.server.left = []) (htoClient : s.toClient = [])
    (hack : s.ack.length < dataHeaderSize) : AllAcked t s := by
  have hlinked := linked_reach hfit h
  refine ⟨hunsent, ?_⟩
  obtain ⟨todo, hwritten, hbytes⟩ := hlinked.toServer
  obtain ⟨acked, unacked, hserved, hacked, hechoes⟩ := hlinked.toClient
  have htodo : todo = [] := by
    cases todo with
    | nil => rfl
    | cons p todo =>
      rw [htoServer, hunsent, List.append_nil, List.append_nil, List.flatMap_cons] at hbytes
      rw [hbytes, Packet.wire.decode_encode trivial] at hgot
      cases hgot
  have hunacked : unacked = [] := by
    cases unacked with
    | nil => rfl
    | cons p unacked =>
      rw [htoClient, hleft, List.append_nil, List.append_nil, List.map_cons, List.flatMap_cons,
        ← DataHeader.encode_eq_wire] at hechoes
      rw [hechoes, List.length_append, DataHeader.length_encode] at hack
      omega
  rw [htodo, List.append_nil] at hwritten
  rw [hunacked, List.append_nil] at hserved
  have hseqs := eq_range'_of_prefix (served_seqs hfit h)
  have hnumbered := congrArg List.length (accounted_reach (client_reach h)).numbered
  rw [List.length_map, List.length_range'] at hnumbered
  rw [hacked, ← hserved, hseqs.1, List.length_map, ← hwritten, List.length_map, hnumbered]

/-- Until it ends, the client is not stuck : something can be moved within any bounds, or all is
acknowledged. -/
theorem exists_move (hfit : spec.payloadBytes.toNat < 2 ^ 32)
    (h : (tcpSystem spec start nextSend).Reach t s) (hended : s.client.pc.ended = false)
    {c : ℕ × ℕ} (hc₁ : 0 < c.1) (hc₂ : 0 < c.2) :
    (∃ a, a.moves = true ∧ (∀ b, a ≠ .client b) ∧ s.fits c a = true ∧
      (tcpSystemStep spec start s a).isSome) ∨ AllAcked t s := by
  have hlinked := linked_reach hfit h
  have hworking := working_reach hfit h
  have hreads : s.reads := ⟨hworking.reader, fun hpc => by rw [hpc] at hended; cases hended⟩
  by_cases hack : s.ack.length = dataHeaderSize
  · obtain ⟨header, hheader⟩ := hlinked.decode_ack hack
    refine .inl ⟨.readerNext 0, rfl, nofun, rfl, ?_⟩
    simp [tcpSystemStep, hreads, hack, hheader, tcpStep]
  by_cases htoClient : s.toClient = []
  swap
  · have hpos := List.length_pos_iff.mpr htoClient
    have hle := hworking.ack
    refine .inl ⟨.readerRead 1, rfl, nofun, rfl, ?_⟩
    unfold tcpSystemStep
    dsimp only
    rw [if_pos ⟨hreads, by omega, hpos⟩]
    rfl
  rcases hworking.server.progress with hnext | ⟨-, hwrite⟩ | ⟨hgot, hleft, hwaits⟩
  · refine .inl ⟨.serverNext, rfl, nofun, rfl, ?_⟩
    unfold tcpSystemStep onServer
    rwa [Option.isSome_map]
  · refine .inl ⟨.serverWrite 1, rfl, nofun, decide_eq_true ?_, ?_⟩
    · rw [htoClient]
      exact hc₂
    · unfold tcpSystemStep onServer
      rwa [Option.isSome_map]
  cases htoServer : s.toServer with
  | cons b rest =>
    rcases hwaits with hread | ⟨got, hclosed⟩
    · refine .inl ⟨.serverRead 1, rfl, nofun, rfl, ?_⟩
      unfold tcpSystemStep onServer
      dsimp only
      rw [htoServer, if_pos (show 1 ≤ (b :: rest).length from Nat.succ_pos _), Option.isSome_map]
      exact hread b
    · rw [(hworking.closed got hclosed).2] at htoServer
      cases htoServer
  | nil =>
    by_cases hunsent : s.unsent = []
    · exact .inr (allAcked_of_empty hfit h hunsent htoServer hgot hleft htoClient
        (lt_of_le_of_ne hworking.ack hack))
    · obtain ⟨m, hpc | hpc⟩ := hlinked.unsent.resolve_left hunsent
      · refine .inl ⟨.send 1, rfl, nofun, decide_eq_true ?_, ?_⟩
        · rw [htoServer]
          exact hc₁
        · unfold tcpSystemStep
          dsimp only
          rw [hpc]
          dsimp only
          rw [if_pos (show 1 ≤ s.unsent.length from List.length_pos_iff.mpr hunsent)]
          rfl
      · rw [hpc] at hended
        cases hended

/-- The loop may sleep before it looks whether its time is over. -/
def Pc.paces : Pc → Bool
  | .window | .pace | .paceSleep _ => true
  | _ => false

/-- If the loop sleeps now, then until `time` at most. -/
def TcpState.WakesBy (time : ℕ) (c : TcpState) : Prop :=
  c.pc.paces = true → c.nextSend ≤ time

theorem tcpTick_wakesBy {c c' : TcpState} {now time : ℕ} {o : List TcpObs}
    (h : tcpTick spec start c now = some (c', o)) (hnow : drainAt spec start ≤ now)
    (hwakes : c.WakesBy time) : c'.WakesBy time := by
  unfold tcpTick at h
  unfold drainAt at hnow
  dsimp only at h
  cases hpc : c.pc with
  | head | stamp | flush =>
    simp only [hpc] at h
    split_ifs at h <;> obtain ⟨rfl, -⟩ := Prod.mk.inj (Option.some.inj h) <;> nofun
  | sleep | write _ | insert _ =>
    simp only [hpc] at h
    obtain ⟨rfl, -⟩ := Prod.mk.inj (Option.some.inj h)
    nofun
  | acks =>
    simp only [hpc] at h
    split at h
    · rename_i r htake
      obtain rfl := Option.some.inj h
      intro hpaces
      rw [takeAck_pc htake, hpc] at hpaces
      cases hpaces
    · obtain ⟨rfl, -⟩ := Prod.mk.inj (Option.some.inj h)
      nofun
  | checkEnd | drain =>
    -- The loop does not come to the window any more.
    simp only [hpc] at h
    rw [if_pos (by omega)] at h
    obtain ⟨rfl, -⟩ := Prod.mk.inj (Option.some.inj h)
    nofun
  | window =>
    have hnext : c.nextSend ≤ time := hwakes (by rw [hpc]; rfl)
    simp only [hpc] at h
    split_ifs at h <;> obtain ⟨rfl, -⟩ := Prod.mk.inj (Option.some.inj h)
    · nofun
    · exact fun _ => hnext
  | recv =>
    simp only [hpc] at h
    obtain ⟨⟨c₁, o₁⟩, -, heq⟩ := Option.map_eq_some_iff.mp h
    obtain ⟨rfl, -⟩ := Prod.mk.inj heq
    nofun
  | pace =>
    have hnext : c.nextSend ≤ time := hwakes (by rw [hpc]; rfl)
    simp only [hpc] at h
    split at h
    · obtain ⟨rfl, -⟩ := Prod.mk.inj (Option.some.inj h)
      nofun
    · split_ifs at h <;> obtain ⟨rfl, -⟩ := Prod.mk.inj (Option.some.inj h)
      · exact fun _ => hnext
      · nofun
  | paceSleep _ =>
    simp only [hpc] at h
    split_ifs at h
    obtain ⟨rfl, -⟩ := Prod.mk.inj (Option.some.inj h)
    nofun
  | done | failed _ | panicked => simp only [hpc, reduceCtorEq] at h

theorem tcpStep_wakesBy {c c' : TcpState} {b : TcpAction} {time : ℕ} {o : List TcpObs}
    (h : tcpStep spec start c b = some (c', o)) (hnow : ∀ now, b = .tick now → drainAt spec start ≤ now)
    (hwakes : c.WakesBy time) : c'.WakesBy time := by
  cases b with
  | tick now => exact tcpTick_wakesBy h (hnow now rfl) hwakes
  | deliver seq recvMonoNs =>
    obtain ⟨rfl, -⟩ := Prod.mk.inj (Option.some.inj h)
    exact hwakes
  | elapsed =>
    unfold tcpStep at h
    dsimp only at h
    split_ifs at h
    obtain ⟨rfl, -⟩ := Prod.mk.inj (Option.some.inj h)
    nofun
  | writeFails =>
    unfold tcpStep at h
    dsimp only at h
    split at h
    · obtain ⟨rfl, -⟩ := Prod.mk.inj (Option.some.inj h)
      nofun
    · cases h
  | flush seq =>
    unfold tcpStep at h
    dsimp only at h
    split at h
    · obtain ⟨rfl, -⟩ := Prod.mk.inj (Option.some.inj h)
      exact hwakes
    · cases h

/-- So it is in the system. -/
theorem wakesBy_step {time : ℕ} (hlinked : Linked hfit t s)
    (hs : tcpSystemStep spec start s a = some (s', o))
    (hlate : a.late (drainAt spec start) = true) (hwakes : s.client.WakesBy time) :
    s'.client.WakesBy time := by
  by_cases ha : ∃ b, a = .client b
  · obtain ⟨b, rfl⟩ := ha
    unfold tcpSystemStep at hs
    dsimp only at hs
    split_ifs at hs
    obtain ⟨⟨c, o'⟩, hstep, hs⟩ := Option.map_eq_some_iff.mp hs
    obtain ⟨rfl, -⟩ := Prod.mk.inj hs
    rw [TcpSystemState.client_resume]
    exact tcpStep_wakesBy hstep (fun now hb => by subst hb; exact of_decide_eq_true hlate) hwakes
  · obtain ⟨-, hpc, -, hnext, -⟩ := bytesWork_step hlinked hs fun b hb => ha ⟨b, hb⟩
    unfold TcpState.WakesBy
    rw [hpc, hnext]
    exact hwakes

/-- The sender loop goes on, if it does not wait. -/
theorem tcpTick_isSome (spec : StreamRunSpec) (start : ℕ) {now : ℕ} {c : TcpState}
    (hended : c.pc.ended = false) (hrecv : c.pc ≠ .recv) (hflush : c.pc ≠ .flush)
    (hwakes : c.WakesBy now) : (tcpTick spec start c now).isSome := by
  unfold tcpTick
  dsimp only
  cases hpc : c.pc with
  | recv => exact absurd hpc hrecv
  | flush => exact absurd hpc hflush
  | done | failed _ | panicked =>
    rw [hpc] at hended
    cases hended
  | acks => dsimp only; split <;> rfl
  | pace =>
    dsimp only
    split
    · rfl
    · split_ifs <;> rfl
  | head | checkEnd | drain | window | stamp => dsimp only; split_ifs <;> rfl
  | paceSleep _ =>
    dsimp only
    rw [if_pos (hwakes (by rw [hpc]; rfl))]
    rfl
  | sleep | write _ | insert _ => rfl

/-- A step of the sender loop is one of the system, unless bytes of its frame are left. -/
theorem client_isSome {b : TcpAction} (hallow : s.allows b = true)
    (h : (tcpStep spec start s.client b).isSome) :
    (tcpSystemStep spec start s (.client b)).isSome := by
  unfold tcpSystemStep
  dsimp only
  rw [if_pos hallow, Option.isSome_map]
  exact h

/-- As long as the client has not ended, something can be done at any time from which on it does not
sleep, within any bounds. -/
theorem exists_late (hfit : spec.payloadBytes.toNat < 2 ^ 32)
    (h : (tcpSystem spec start nextSend).Reach t s) (hended : s.client.pc.ended = false)
    {time : ℕ} (hwakes : s.client.WakesBy time) {c : ℕ × ℕ} (hc₁ : 0 < c.1) (hc₂ : 0 < c.2) :
    ∃ a, a.moves = true ∧ a.atTime time = true ∧ s.fits c a = true ∧
      (tcpSystemStep spec start s a).isSome := by
  have htime : (TcpSystemAction.client (.tick time)).atTime time = true := decide_eq_true rfl
  by_cases hrecv : s.client.pc = .recv
  · exact ⟨.client .elapsed, rfl, rfl, rfl, client_isSome rfl (by simp [tcpStep, hrecv])⟩
  by_cases hflush : s.client.pc = .flush
  · by_cases hpending : s.client.pending.entries = []
    · refine ⟨.client (.tick time), rfl, htime, rfl, client_isSome ?_ ?_⟩
      · simp [TcpSystemState.allows, hflush]
      · simp [tcpStep, tcpTick, hflush, hpending]
    · have hkeys : s.client.pending.keys ≠ [] := fun hnil => hpending (List.map_eq_nil_iff.mp hnil)
      obtain ⟨k, hk⟩ := List.exists_mem_of_ne_nil _ hkeys
      obtain ⟨entry, hentry⟩ := Option.isSome_iff_exists.mp (AList.lookup_isSome.mpr hk)
      refine ⟨.client (.flush k), rfl, rfl, rfl, client_isSome rfl ?_⟩
      simp [tcpStep, hflush, hentry]
  have htick := tcpTick_isSome spec start hended hrecv hflush hwakes
  by_cases hallow : s.allows (.tick time) = true
  · exact ⟨.client (.tick time), rfl, htime, rfl, client_isSome hallow htick⟩
  · have hunsent : s.unsent ≠ [] := by
      rintro hnil
      refine hallow ?_
      unfold TcpSystemState.allows
      dsimp only
      split
      · rw [hnil]
        rfl
      · rfl
    rcases exists_move hfit h hended hc₁ hc₂ with ⟨a, hmoves, ha, hfits, hsome⟩ | hall
    · refine ⟨a, hmoves, ?_, hfits, hsome⟩
      cases a with
      | client b => exact absurd rfl (ha b)
      | _ => rfl
    · exact absurd hall.1 hunsent

end System

/-- The server's loop, the reader task and a write never block each other, however few bytes the
sockets hold. From each state of a run in which the client has not ended they take a bounded number
of steps, in whatever order, and as long as something that the client wrote is not acknowledged one
of them can be taken. -/
theorem tcpSystem_drains {spec : StreamRunSpec} (hfit : spec.payloadBytes.toNat < 2 ^ 32)
    {start nextSend : ℕ} {t t' : List TcpSystemObs} {s s' : TcpSystemState}
    (h : (tcpSystem spec start nextSend).Reach t s) (hended : s.client.pc.ended = false)
    {as : List TcpSystemAction} (has : ∀ a ∈ as, ∀ b, a ≠ .client b)
    (he : (tcpSystem spec start nextSend).exec s as = some (s', t')) :
    as.countP TcpSystemAction.moves + s'.bytesWork ≤ s.bytesWork ∧
    ∀ c : ℕ × ℕ, 0 < c.1 → 0 < c.2 → AllAcked (t ++ t') s' ∨
      ∃ a, a.moves = true ∧ (∀ b, a ≠ .client b) ∧ s'.fits c a = true ∧
        (tcpSystemStep spec start s' a).isSome := by
  obtain ⟨⟨-, hpc⟩, hcount⟩ := (tcpSystem spec start nextSend).exec_measure
    (P := fun a => ∀ b, a ≠ .client b)
    (I := fun r => (∃ u, (tcpSystem spec start nextSend).Reach u r) ∧ r.client.pc = s.client.pc)
    TcpSystemState.bytesWork TcpSystemAction.moves (by
      rintro r a r' o ⟨⟨u, hr⟩, hpc⟩ ha hstep
      obtain ⟨hwork, hpc', -⟩ := bytesWork_step (linked_reach hfit hr) hstep ha
      exact ⟨⟨⟨_, hr.step hstep⟩, hpc'.trans hpc⟩, hwork⟩) ⟨⟨t, h⟩, rfl⟩ has he
  exact ⟨hcount, fun c hc₁ hc₂ =>
    (exists_move hfit (h.exec he) (by rw [hpc]; exact hended) hc₁ hc₂).symm⟩

/-- A stream with payloads of one byte. -/
def byteSpec : StreamRunSpec :=
  { shortSpec with payloadBytes := 1 }

/-- The write of a packet begins. -/
def oneBegun : List TcpSystemAction :=
  .replicate 6 (.client (.tick 1))

/-- The packet is read, echoed and acknowledged. -/
def oneDrained : List TcpSystemAction :=
  [.send 41, .serverRead 40, .serverNext, .serverRead 1, .serverNext, .serverWrite 30,
    .readerRead 30, .serverWrite 10, .readerRead 10, .readerNext 3]

theorem oneDrained_exec :
    (((tcpSystem byteSpec 0 0).exec (tcpSystem byteSpec 0 0).init oneBegun).bind fun r =>
      ((tcpSystem byteSpec 0 0).exec r.1 oneDrained).map fun r' =>
        (r.1.client.pc, r.1.bytesWork, r'.1.client.pc)) = some (.write 1, 247, .write 1) := by
  decide +kernel

theorem tcpSystem_drains_oneDrained :
    ∃ t t' s s', (tcpSystem byteSpec 0 0).Reach t s ∧
      (tcpSystem byteSpec 0 0).exec s oneDrained = some (s', t') ∧ 10 + s'.bytesWork ≤ 247 := by
  obtain ⟨⟨s, t⟩, hbegun, hexec⟩ := Option.bind_eq_some_iff.mp oneDrained_exec
  obtain ⟨⟨s', t'⟩, hdrained, hshow⟩ := Option.map_eq_some_iff.mp hexec
  obtain ⟨hpc, hwork, -⟩ : s.client.pc = .write 1 ∧ s.bytesWork = 247 ∧ s'.client.pc = .write 1 := by
    simpa using hshow
  have hreach := Machine.reach_exec hbegun
  have hdrains := tcpSystem_drains (by decide) hreach (by rw [hpc]; rfl)
    (by simp [oneDrained]) hdrained
  rw [hwork] at hdrains
  exact ⟨t, t', s, s', hreach, hdrained, hdrains.1⟩

/-- The packet is acknowledged behind the drain deadline, and the loop is left. -/
def oneReturned : List TcpSystemAction :=
  oneDrained ++ .replicate 8 (.client (.tick 15))

theorem oneReturned_exec :
    (((tcpSystem byteSpec 0 0).exec (tcpSystem byteSpec 0 0).init oneBegun).bind fun r =>
      ((tcpSystem byteSpec 0 0).exec r.1 oneReturned).map fun r' =>
        (r.1.work byteSpec, r.1.client.nextSend, r'.1.client.pc)) = some (255, 0, .done) := by
  decide +kernel

end Ipfusch
