import Ipfusch.DataLoop
import Ipfusch.Machine

/-!
# The data loop in chunks

The server's data loop as a `Machine` : bytes arrive in chunks of any size, `read_exact`
keeps the part of its buffer that is filled, and `write_all` writes in chunks too. So
other parties can act between any two chunks.

`echoLoop_output` relates it to `dataLoop`, which reads from a stream that is already
there : on the bytes read so far, what the machine has written is at the front of what
`dataLoop` writes, and all of it whenever the machine waits for bytes.
-/

namespace Ipfusch

open ByteConn

/-- Where the loop is. -/
inductive EchoPc
  /-- `read_exact_or_eof(&mut socket, &mut header_buf)`, with `got` read. -/
  | header (got : List UInt8)
  /-- `read_exact(&mut payload_buf[..required])`, with `got` read. -/
  | payload (header : DataHeader) (headerBuf got : List UInt8)
      (decoded : DataHeader.decode headerBuf = .ok header)
  /-- `write_all(&header_buf)`, with `left` to write. -/
  | echo (left : List UInt8)
  /-- The stream ended, after `got`. -/
  | closed (got : List UInt8)
  /-- The header `got` was not decoded. -/
  | failed (got : List UInt8)

/-- What happens in a run. -/
inductive EchoObs
  | read (chunk : List UInt8)
  | wrote (chunk : List UInt8)
  /-- A packet was read to its end. -/
  | served (p : Packet)

/-- What can come next. -/
inductive EchoAction
  /-- A chunk arrives. -/
  | read (chunk : List UInt8)
  /-- Some bytes of the echo are written. -/
  | write (n : ℕ)
  /-- The read or write is complete, and the loop goes on. -/
  | next
  /-- The stream ends. -/
  | eof

/-- The bytes the loop waits for. -/
def EchoPc.need : EchoPc → ℕ
  | .header got => dataHeaderSize - got.length
  | .payload h _ got _ => h.payloadLen.toNat - got.length
  | _ => 0

/-- One step of the loop. -/
def echoStep : EchoPc → EchoAction → Option (EchoPc × List EchoObs)
  | .header got, .read chunk =>
    if chunk.length ≤ (EchoPc.header got).need then some (.header (got ++ chunk), [.read chunk])
    else none
  | .header got, .next =>
    if got.length = dataHeaderSize then
      match hd : DataHeader.decode got with
      | .error _ => some (.failed got, [])
      | .ok header =>
        if hlen : 0 < header.payloadLen.toNat then some (.payload header got [] hd, [])
        else
          some (.echo got, [.served ⟨header, [], (DataHeader.decode_eq_ok_iff.mp hd).2.1,
            (DataHeader.decode_eq_ok_iff.mp hd).2.2, by rw [List.length_nil]; omega⟩])
    else none
  | .header got, .eof => if got.length < dataHeaderSize then some (.closed got, []) else none
  | .payload header headerBuf got hd, .read chunk =>
    if chunk.length ≤ (EchoPc.payload header headerBuf got hd).need then
      some (.payload header headerBuf (got ++ chunk) hd, [.read chunk])
    else none
  | .payload header headerBuf got hd, .next =>
    if hlen : got.length = header.payloadLen.toNat then
      some (.echo headerBuf, [.served ⟨header, got, (DataHeader.decode_eq_ok_iff.mp hd).2.1,
        (DataHeader.decode_eq_ok_iff.mp hd).2.2, hlen⟩])
    else none
  | .payload header headerBuf got _, .eof =>
    if got.length < header.payloadLen.toNat then some (.closed (headerBuf ++ got), []) else none
  | .echo left, .write n =>
    if n ≤ left.length then some (.echo (left.drop n), [.wrote (left.take n)]) else none
  | .echo left, .next => if left = [] then some (.header [], []) else none
  | _, _ => none

/-- The data loop from its start. -/
def echoLoop : Machine EchoPc EchoAction EchoObs where
  init := .header []
  step := echoStep

/-! ## What a step can do -/

/-- The bytes read of a packet that is not complete. -/
def EchoPc.got : EchoPc → List UInt8
  | .header got | .closed got | .failed got => got
  | .payload _ headerBuf got _ => headerBuf ++ got
  | .echo _ => []

/-- The bytes of the echo that are not written. -/
def EchoPc.left : EchoPc → List UInt8
  | .echo left => left
  | _ => []

/-- What a step does to the bytes the loop holds, and what it shows. -/
inductive EchoEffect (s s' : EchoPc) : EchoAction → List EchoObs → Prop
  | moved (hgot : s'.got = s.got) (hleft : s'.left = s.left) : EchoEffect s s' .next []
  | closed (hgot : s'.got = s.got) (hleft : s'.left = s.left) : EchoEffect s s' .eof []
  | read (chunk : List UInt8) (hgot : s'.got = s.got ++ chunk) (hleft : s'.left = s.left) :
      EchoEffect s s' (.read chunk) [.read chunk]
  | wrote (n : ℕ) (chunk : List UInt8) (hgot : s'.got = s.got)
      (hleft : s.left = chunk ++ s'.left) : EchoEffect s s' (.write n) [.wrote chunk]
  | served (p : Packet) (hgot : s.got = Packet.wire.encode p) (hleft : s.left = [])
      (hgot' : s'.got = []) (hleft' : s'.left = p.header.encode) :
      EchoEffect s s' .next [.served p]

/-- A header that is complete : it is decoded. -/
theorem echoStep_header_next {got : List UInt8} {s' : EchoPc} {o : List EchoObs}
    (h : echoStep (.header got) .next = some (s', o)) : EchoEffect (.header got) s' .next o := by
  unfold echoStep at h
  dsimp only at h
  split_ifs at h with hlen
  split at h
  · obtain ⟨rfl, rfl⟩ := Prod.mk.inj (Option.some.inj h)
    exact .moved rfl rfl
  · rename_i header hd
    have hgot := (DataHeader.decode_eq_ok_iff.mp hd).1
    split_ifs at h
    · obtain ⟨rfl, rfl⟩ := Prod.mk.inj (Option.some.inj h)
      exact .moved (List.append_nil _) rfl
    · obtain ⟨rfl, rfl⟩ := Prod.mk.inj (Option.some.inj h)
      refine .served _ ?_ rfl rfl hgot
      exact hgot.trans (List.append_nil _).symm

theorem echoStep_effect {s s' : EchoPc} {a : EchoAction} {o : List EchoObs}
    (h : echoStep s a = some (s', o)) : EchoEffect s s' a o := by
  cases s with
  | header got =>
    cases a with
    | next => exact echoStep_header_next h
    | read chunk =>
      unfold echoStep at h
      dsimp only at h
      split_ifs at h
      obtain ⟨rfl, rfl⟩ := Prod.mk.inj (Option.some.inj h)
      exact .read chunk rfl rfl
    | eof =>
      unfold echoStep at h
      dsimp only at h
      split_ifs at h
      obtain ⟨rfl, rfl⟩ := Prod.mk.inj (Option.some.inj h)
      exact .closed rfl rfl
    | write n => cases h
  | payload header headerBuf got hd =>
    cases a with
    | next =>
      unfold echoStep at h
      dsimp only at h
      split_ifs at h
      obtain ⟨rfl, rfl⟩ := Prod.mk.inj (Option.some.inj h)
      have hbuf := (DataHeader.decode_eq_ok_iff.mp hd).1
      refine .served _ ?_ rfl rfl hbuf
      exact congrArg (· ++ got) hbuf
    | read chunk =>
      unfold echoStep at h
      dsimp only at h
      split_ifs at h
      obtain ⟨rfl, rfl⟩ := Prod.mk.inj (Option.some.inj h)
      exact .read chunk (List.append_assoc _ _ _).symm rfl
    | eof =>
      unfold echoStep at h
      dsimp only at h
      split_ifs at h
      obtain ⟨rfl, rfl⟩ := Prod.mk.inj (Option.some.inj h)
      exact .closed rfl rfl
    | write n => cases h
  | echo left =>
    cases a with
    | write n =>
      unfold echoStep at h
      dsimp only at h
      split_ifs at h
      obtain ⟨rfl, rfl⟩ := Prod.mk.inj (Option.some.inj h)
      exact .wrote n _ rfl (List.take_append_drop n left).symm
    | next =>
      unfold echoStep at h
      dsimp only at h
      split_ifs at h with hleft
      obtain ⟨rfl, rfl⟩ := Prod.mk.inj (Option.some.inj h)
      exact .moved rfl hleft.symm
    | read _ | eof => cases h
  | closed _ | failed _ => cases a <;> cases h

/-! ## What a run shows -/

/-- The packets read to their end. -/
def served (t : List EchoObs) : List Packet :=
  t.filterMap fun o => match o with
    | .served p => some p
    | _ => none

/-- The bytes read. -/
def bytesRead (t : List EchoObs) : List UInt8 :=
  t.flatMap fun o => match o with
    | .read chunk => chunk
    | _ => []

/-- The bytes written. -/
def bytesWritten (t : List EchoObs) : List UInt8 :=
  t.flatMap fun o => match o with
    | .wrote chunk => chunk
    | _ => []

/-- What was read is the packets served and the part of a packet, and what was written and is
still to be written are the headers of the packets served. -/
structure Echoed (t : List EchoObs) (s : EchoPc) : Prop where
  read : bytesRead t = (served t).flatMap Packet.wire.encode ++ s.got
  written : bytesWritten t ++ s.left = echoes (served t)

theorem echoed_step {t o : List EchoObs} {s s' : EchoPc} {a : EchoAction} (h : Echoed t s)
    (he : EchoEffect s s' a o) : Echoed (t ++ o) s' := by
  obtain ⟨hread, hwritten⟩ := h
  unfold bytesRead at hread
  unfold bytesWritten at hwritten
  cases he with
  | moved hgot hleft | closed hgot hleft =>
    rw [List.append_nil]
    exact ⟨by rw [hgot]; exact hread, by rw [hleft]; exact hwritten⟩
  | read chunk hgot hleft =>
    refine ⟨?_, ?_⟩
    · simp [bytesRead, served, hread, hgot]
    · simpa [bytesWritten, served, hleft] using hwritten
  | wrote n chunk hgot hleft =>
    rw [hleft] at hwritten
    refine ⟨?_, ?_⟩
    · simpa [bytesRead, served, hgot] using hread
    · simpa [bytesWritten, served] using hwritten
  | served p hgot hleft hgot' hleft' =>
    rw [hleft, List.append_nil] at hwritten
    refine ⟨?_, ?_⟩
    · simp [bytesRead, served, hread, hgot, hgot']
    · simp [bytesWritten, served, hwritten, hleft', echoes]

theorem echoed_reach {t : List EchoObs} {s : EchoPc} (h : echoLoop.Reach t s) : Echoed t s :=
  h.invariant ⟨rfl, rfl⟩ fun _ he hstep => echoed_step he (echoStep_effect hstep)

/-! ## The loop on a stream that is there -/

/-- While the loop waits for bytes, what it has read of a packet is no packet. -/
theorem EchoPc.decode_got {s : EchoPc} (h : 0 < s.need) : Packet.wire.decode s.got = none := by
  cases s with
  | header got =>
    have hlt : got.length < dataHeaderSize := Nat.lt_of_sub_pos h
    exact Packet.wire_decode_invalid (DataHeader.decode_take_of_short hlt)
  | payload header headerBuf got hd =>
    have hlt : got.length < header.payloadLen.toNat := Nat.lt_of_sub_pos h
    have hlen := DataHeader.length_of_decode hd
    refine Packet.wire_decode_short (h := header) ?_ ?_
    · rw [EchoPc.got, ← hlen, List.take_left]
      exact hd
    · rw [EchoPc.got, ← hlen, List.drop_left]
      exact hlt
  | echo _ | closed _ | failed _ => cases h

/-- The machine writes what `dataLoop` writes on the bytes read so far, and all of it whenever
it waits for bytes. -/
theorem echoLoop_output {t : List EchoObs} {s : EchoPc} (h : echoLoop.Reach t s)
    (texts : HandlerTexts) (payloadBuf : List UInt8) (tail : StreamEnd) :
    bytesWritten t <+: (dataLoop texts payloadBuf { input := bytesRead t, tail := tail }).2.output ∧
    (0 < s.need → (dataLoop texts payloadBuf { input := bytesRead t, tail := tail }).2.output =
      bytesWritten t) := by
  obtain ⟨hread, hwritten⟩ := echoed_reach h
  have hpackets := Packet.wire.decodeAll_flatMap Packet.wire_encode_ne_nil (served t)
    (fun _ _ => trivial) s.got
  rw [← hread] at hpackets
  rw [dataLoop_eq]
  dsimp only
  rw [packets, hpackets, List.nil_append, echoes, List.flatMap_append]
  rw [echoes] at hwritten
  rw [← hwritten, List.append_assoc]
  refine ⟨List.prefix_append _ _, fun hneed => ?_⟩
  rw [Packet.wire.decodeAll_of_none (EchoPc.decode_got hneed)]
  cases s with
  | header _ | payload _ _ _ _ => simp [EchoPc.left]
  | echo _ | closed _ | failed _ => cases hneed

end Ipfusch
