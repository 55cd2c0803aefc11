import Ipfusch.ControlFrame

/-!
# The server's data loop

`dataLoop` is the loop both stream handlers run after an accepted handshake : read a
header, read as many payload bytes as it announces into a buffer that grows and is
reused, echo the header. The handlers differ in the texts of their error contexts
(`HandlerTexts`).

`Packet` is a well-formed packet : a header that `DataHeader.decode` accepts with as
many payload bytes as it announces. `dataLoop_eq` says what the loop does with any byte
stream : it echoes the headers of the packets at its front (`packets`), and how it ends
is a function of the bytes after them and of how the stream ends (`dataEnd`).
-/

namespace Ipfusch

open ByteConn

/-- The error contexts of a stream handler. -/
structure HandlerTexts where
  readHello : String
  readStart : String
  sendAck : String
  readPayload : String
  writeEcho : String

/-- `read_exact_or_eof` : the buffer, or `none` at end of file. -/
def readExactOrEof (n : ℕ) : Net (Option (List UInt8)) where
  run c :=
    match (readExact n : Net _).run c with
    | (.ok buf, c') => (.ok (some buf), c')
    | (.error (.failed (.io .unexpectedEof)), c') => (.ok none, c')
    | (.error e, c') => (.error e, c')

/-- `Vec::resize` with zeros, if the vector is shorter. -/
def growTo (required : ℕ) (buf : List UInt8) : List UInt8 :=
  if buf.length < required then buf ++ List.replicate (required - buf.length) 0 else buf

/-- The payload of a packet, read into the front of the buffer. -/
def readPayload (t : HandlerTexts) (header : DataHeader) (payloadBuf : List UInt8) :
    Net (List UInt8) :=
  if 0 < header.payloadLen.toNat then do
    let required := header.payloadLen.toNat
    let payloadBuf := growTo required payloadBuf
    let payload ← context t.readPayload (readExact (Bytes.slice payloadBuf 0 required).length)
    pure (Bytes.copySlice payloadBuf 0 required payload)
  else pure payloadBuf

/-- The body of the loop after a header was read : decode it, read the payload, write the
header back. Returns the payload buffer for the next packet. -/
def echoPacket (t : HandlerTexts) (payloadBuf headerBuf : List UInt8) : Net (List UInt8) := do
  let header ← liftExcept ((DataHeader.decode headerBuf).mapError NetError.core)
  let payloadBuf ← readPayload t header payloadBuf
  context t.writeEcho (writeAll headerBuf)
  pure payloadBuf

/-! ## What one turn of the loop does -/

theorem readExactOrEof_append {n : ℕ} {c : Conn} {a rest : List UInt8} (h : a.length = n)
    (hc : c.input = a ++ rest) :
    (readExactOrEof n).run c = (.ok (some a), { c with input := rest }) := by
  simp only [readExactOrEof, readExact_append h hc]

theorem readExactOrEof_short {n : ℕ} {c : Conn} (h : c.input.length < n) :
    (readExactOrEof n).run c = ((match c.tail with
      | .eof => .ok none
      | .broken => .error (.failed (.io .other))
      | .silent => .error .blocked), { c with input := [] }) := by
  simp only [readExactOrEof, readExact_short h]
  cases c.tail <;> rfl

/-- The payload buffer is grown to at least what is read into it. -/
theorem length_slice_growTo (required : ℕ) (buf : List UInt8) :
    (Bytes.slice (growTo required buf) 0 required).length = required := by
  refine Bytes.length_slice ?_
  unfold growTo
  split_ifs with h
  · simp only [List.length_append, List.length_replicate]
    omega
  · omega

theorem decodeHeader_ok {headerBuf : List UInt8} {h : DataHeader}
    (hd : DataHeader.decode headerBuf = .ok h) (c : Conn) :
    (liftExcept ((DataHeader.decode headerBuf).mapError NetError.core)).run c = (.ok h, c) := by
  rw [hd]
  rfl

theorem decodeHeader_error {headerBuf : List UInt8} {e : IpfuschError}
    (hd : DataHeader.decode headerBuf = .error e) (c : Conn) :
    (liftExcept ((DataHeader.decode headerBuf).mapError NetError.core)).run c =
      (.error (.failed (.error (.core e))), c) := by
  rw [hd]
  rfl

theorem readPayload_ok (t : HandlerTexts) (payloadBuf : List UInt8) {h : DataHeader} {c : Conn}
    {payload rest : List UInt8} (hlen : payload.length = h.payloadLen.toNat)
    (hc : c.input = payload ++ rest) : ∃ payloadBuf', (readPayload t h payloadBuf).run c =
      (.ok payloadBuf', { c with input := rest }) := by
  unfold readPayload
  split_ifs with hpos
  · have hread := readExact_append (ε := NetError)
      (hlen.trans (length_slice_growTo _ payloadBuf).symm) hc
    exact ⟨_, bind_ok (context_ok hread)⟩
  · obtain rfl : payload = [] := List.eq_nil_of_length_eq_zero (by omega)
    refine ⟨payloadBuf, ?_⟩
    rw [← List.nil_append rest, ← hc]
    rfl

theorem readPayload_short (t : HandlerTexts) (payloadBuf : List UInt8) {h : DataHeader}
    {c : Conn} (hc : c.input.length < h.payloadLen.toNat) : (readPayload t h payloadBuf).run c =
      (.error (c.tail.stop.context t.readPayload), { c with input := [] }) := by
  unfold readPayload
  rw [if_pos (by omega)]
  exact bind_error (context_error (readExact_short (by rw [length_slice_growTo]; exact hc)))

/-- A whole payload is read and the header is written back. -/
theorem echoPacket_ok (t : HandlerTexts) (payloadBuf : List UInt8) {headerBuf : List UInt8}
    {h : DataHeader} (hd : DataHeader.decode headerBuf = .ok h) {c : Conn}
    {payload rest : List UInt8} (hlen : payload.length = h.payloadLen.toNat)
    (hc : c.input = payload ++ rest) : ∃ payloadBuf', (echoPacket t payloadBuf headerBuf).run c =
      (.ok payloadBuf', { c with input := rest, output := c.output ++ headerBuf }) := by
  obtain ⟨payloadBuf', hread⟩ := readPayload_ok t payloadBuf hlen hc
  refine ⟨payloadBuf', ?_⟩
  unfold echoPacket
  rw [bind_ok (decodeHeader_ok hd c), bind_ok hread, bind_ok (context_ok (writeAll_run _ _))]
  rfl

/-- A payload that is cut short is an error, or waited for. -/
theorem echoPacket_short (t : HandlerTexts) (payloadBuf : List UInt8) {headerBuf : List UInt8}
    {h : DataHeader} (hd : DataHeader.decode headerBuf = .ok h) {c : Conn}
    (hc : c.input.length < h.payloadLen.toNat) : (echoPacket t payloadBuf headerBuf).run c =
      (.error (c.tail.stop.context t.readPayload), { c with input := [] }) := by
  unfold echoPacket
  rw [bind_ok (decodeHeader_ok hd c), bind_error (readPayload_short t payloadBuf hc)]

/-- A header that is not decoded is an error. -/
theorem echoPacket_invalid (t : HandlerTexts) (payloadBuf : List UInt8) {headerBuf : List UInt8}
    {e : IpfuschError} (hd : DataHeader.decode headerBuf = .error e) (c : Conn) :
    (echoPacket t payloadBuf headerBuf).run c = (.error (.failed (.error (.core e))), c) := by
  unfold echoPacket
  exact bind_error (decodeHeader_error hd c)

/-! ## The loop -/

theorem input_readExactOrEof {n : ℕ} {c c' : Conn} {buf : List UInt8}
    (h : (readExactOrEof n).run c = (.ok (some buf), c')) :
    c'.input.length + n = c.input.length ∧ buf = c.input.take n := by
  rcases Nat.lt_or_ge c.input.length n with hlt | hge
  · rw [readExactOrEof_short hlt] at h
    cases htail : c.tail <;> simp [htail] at h
  · have htake : (c.input.take n).length = n := by simp [hge]
    rw [readExactOrEof_append htake (List.take_append_drop n c.input).symm] at h
    obtain ⟨h1, rfl⟩ := Prod.mk.inj h
    simp only [Except.ok.injEq, Option.some.injEq] at h1
    refine ⟨?_, h1.symm⟩
    simp only [List.length_drop]
    omega

theorem input_echoPacket_le {t : HandlerTexts} {payloadBuf payloadBuf' headerBuf : List UInt8}
    {c c' : Conn} (h : (echoPacket t payloadBuf headerBuf).run c = (.ok payloadBuf', c')) :
    c'.input.length ≤ c.input.length := by
  cases hd : DataHeader.decode headerBuf with
  | error e => simp [echoPacket_invalid t payloadBuf hd c] at h
  | ok header =>
    rcases Nat.lt_or_ge c.input.length header.payloadLen.toNat with hlt | hge
    · simp [echoPacket_short t payloadBuf hd hlt] at h
    · obtain ⟨b, hb⟩ := echoPacket_ok t payloadBuf hd (by simp [hge])
        (List.take_append_drop header.payloadLen.toNat c.input).symm
      rw [hb] at h
      obtain ⟨-, rfl⟩ := Prod.mk.inj h
      simp

set_option linter.unusedVariables false in
/-- The loop after an accepted handshake, with the payload buffer of the packets before.
It ends well only at an end of file where a header would start. -/
def dataLoop (t : HandlerTexts) (payloadBuf : List UInt8) (c : Conn) :
    Except (Stop NetError) Unit × Conn :=
  match hr : (readExactOrEof dataHeaderSize).run c with
  | (.error e, c₁) => (.error e, c₁)
  | (.ok none, c₁) => (.ok (), c₁)
  | (.ok (some headerBuf), c₁) =>
    match he : (echoPacket t payloadBuf headerBuf).run c₁ with
    | (.error e, c₂) => (.error e, c₂)
    | (.ok payloadBuf', c₂) => dataLoop t payloadBuf' c₂
termination_by c.input.length
decreasing_by
  have h1 := (input_readExactOrEof hr).1
  have h2 := input_echoPacket_le he
  unfold dataHeaderSize at h1
  omega

/-- With less than a header left, the loop ends as the stream does. -/
theorem dataLoop_short (t : HandlerTexts) (payloadBuf : List UInt8) {c : Conn}
    (h : c.input.length < dataHeaderSize) : dataLoop t payloadBuf c = ((match c.tail with
      | .eof => .ok ()
      | .broken => .error (.failed (.io .other))
      | .silent => .error .blocked), { c with input := [] }) := by
  rw [dataLoop]
  split <;> rename_i hr <;> rw [readExactOrEof_short h] at hr <;>
    cases htail : c.tail <;> simp only [htail, Prod.mk.injEq, Except.ok.injEq, Except.error.injEq,
      reduceCtorEq, false_and, true_and] at hr ⊢
  · exact ⟨hr.1.symm, hr.2.symm⟩
  · exact ⟨hr.1.symm, hr.2.symm⟩
  · exact hr.symm

/-- A turn that fails ends the loop. -/
theorem dataLoop_stop {t : HandlerTexts} {payloadBuf headerBuf : List UInt8} {c c₁ c₂ : Conn}
    {e : Stop NetError} (hr : (readExactOrEof dataHeaderSize).run c = (.ok (some headerBuf), c₁))
    (he : (echoPacket t payloadBuf headerBuf).run c₁ = (.error e, c₂)) :
    dataLoop t payloadBuf c = (.error e, c₂) := by
  rw [dataLoop]
  split <;> rename_i hr' <;> rw [hr] at hr' <;> simp only [Prod.mk.injEq, Except.ok.injEq,
    Option.some.injEq, reduceCtorEq, false_and] at hr'
  obtain ⟨rfl, rfl⟩ := hr'
  split <;> rename_i he' <;> rw [he] at he' <;> simp only [Prod.mk.injEq, Except.error.injEq,
    reduceCtorEq, false_and] at he'
  obtain ⟨rfl, rfl⟩ := he'
  rfl

/-- A turn that succeeds goes on with the rest of the input. -/
theorem dataLoop_step {t : HandlerTexts} {payloadBuf payloadBuf' headerBuf : List UInt8}
    {c c₁ c₂ : Conn} (hr : (readExactOrEof dataHeaderSize).run c = (.ok (some headerBuf), c₁))
    (he : (echoPacket t payloadBuf headerBuf).run c₁ = (.ok payloadBuf', c₂)) :
    dataLoop t payloadBuf c = dataLoop t payloadBuf' c₂ := by
  rw [dataLoop]
  split <;> rename_i hr' <;> rw [hr] at hr' <;> simp only [Prod.mk.injEq, Except.ok.injEq,
    Option.some.injEq, reduceCtorEq, false_and] at hr'
  obtain ⟨rfl, rfl⟩ := hr'
  split <;> rename_i he' <;> rw [he] at he' <;> simp only [Prod.mk.injEq, Except.ok.injEq,
    reduceCtorEq, false_and] at he'
  obtain ⟨rfl, rfl⟩ := he'
  rfl

/-! ## Packets -/

/-- A header that is decoded, with as many payload bytes as it announces. -/
@[ext] structure Packet where
  header : DataHeader
  payload : List UInt8
  magic : header.magic = dataMagic
  version : header.version = protocolVersion
  length_payload : payload.length = header.payloadLen.toNat

namespace Packet

/-- The bytes of a packet : its header and its payload. -/
def wire : PrefixCodec Packet where
  encode p := p.header.encode ++ p.payload
  decode bs :=
    match hd : DataHeader.decode (bs.take dataHeaderSize) with
    | .error _ => none
    | .ok h =>
      if hl : h.payloadLen.toNat ≤ (bs.drop dataHeaderSize).length then
        some (⟨h, (bs.drop dataHeaderSize).take h.payloadLen.toNat,
          (DataHeader.decode_eq_ok_iff.mp hd).2.1, (DataHeader.decode_eq_ok_iff.mp hd).2.2,
          by simpa using hl⟩, (bs.drop dataHeaderSize).drop h.payloadLen.toNat)
      else none
  Fits _ := True
  decode_encode := by
    rintro ⟨h, payload, hm, hv, hlen⟩ - rest
    have htake : ((h.encode ++ payload) ++ rest).take dataHeaderSize = h.encode := by
      rw [List.append_assoc, ← DataHeader.length_encode h, List.take_left]
    have hdrop : ((h.encode ++ payload) ++ rest).drop dataHeaderSize = payload ++ rest := by
      rw [List.append_assoc, ← DataHeader.length_encode h, List.drop_left]
    have hd := DataHeader.decode_encode hm hv
    split
    · rename_i e he
      rw [htake, hd] at he
      cases he
    · rename_i h' he
      rw [htake, hd] at he
      obtain rfl := Except.ok.inj he
      rw [dif_pos (by rw [hdrop, List.length_append]; omega)]
      simp [← hlen]
  sound := by
    intro bs p rest hp
    refine ⟨trivial, ?_⟩
    split at hp
    · cases hp
    · rename_i h hd
      split_ifs at hp with hl
      obtain ⟨rfl, rfl⟩ := Prod.mk.inj (Option.some.inj hp)
      dsimp only
      rw [← (DataHeader.decode_eq_ok_iff.mp hd).1, List.append_assoc, List.take_append_drop,
        List.take_append_drop]

/-- No packet is read where no header is. -/
theorem wire_decode_invalid {bs : List UInt8} {e : IpfuschError}
    (hd : DataHeader.decode (bs.take dataHeaderSize) = .error e) : wire.decode bs = none := by
  show (match _ : DataHeader.decode (bs.take dataHeaderSize) with | .error _ => _ | .ok _ => _) = _
  split
  · rfl
  · rename_i h he
    rw [hd] at he
    cases he

/-- No packet is read where the payload is cut short. -/
theorem wire_decode_short {bs : List UInt8} {h : DataHeader}
    (hd : DataHeader.decode (bs.take dataHeaderSize) = .ok h)
    (hl : (bs.drop dataHeaderSize).length < h.payloadLen.toNat) : wire.decode bs = none := by
  show (match _ : DataHeader.decode (bs.take dataHeaderSize) with | .error _ => _ | .ok _ => _) = _
  split
  · rfl
  · rename_i h' he
    rw [hd] at he
    obtain rfl := Except.ok.inj he
    exact dif_neg (by omega)

/-- Where a header and its payload are, that packet is read. -/
theorem wire_decode_append {h : DataHeader} {bs payload rest : List UInt8}
    (hd : DataHeader.decode (bs.take dataHeaderSize) = .ok h)
    (hlen : payload.length = h.payloadLen.toNat)
    (hbs : bs.drop dataHeaderSize = payload ++ rest) :
    ∃ p : Packet, p.header = h ∧ p.payload = payload ∧ wire.decode bs = some (p, rest) := by
  obtain ⟨htake, hm, hv⟩ := DataHeader.decode_eq_ok_iff.mp hd
  refine ⟨⟨h, payload, hm, hv, hlen⟩, rfl, rfl, ?_⟩
  have hdec := wire.decode_encode (a := ⟨h, payload, hm, hv, hlen⟩) trivial rest
  have henc : wire.encode ⟨h, payload, hm, hv, hlen⟩ = h.encode ++ payload := rfl
  rw [henc] at hdec
  rw [← List.take_append_drop dataHeaderSize bs, htake, hbs, ← List.append_assoc, hdec]

theorem wire_encode_ne_nil (p : Packet) : wire.encode p ≠ [] := by
  intro h
  have hlen := congrArg List.length (List.append_eq_nil_iff.mp h).1
  rw [DataHeader.length_encode] at hlen
  exact absurd hlen (by decide)

end Packet

/-- The well-formed packets at the front of a byte stream, and what is left. -/
def packets (bs : List UInt8) : List Packet × List UInt8 :=
  Packet.wire.decodeAll bs

/-- The headers of packets, one after the other. -/
def echoes (ps : List Packet) : List UInt8 :=
  ps.flatMap fun p => p.header.encode

@[simp] theorem echoes_nil : echoes [] = [] :=
  rfl

theorem echoes_cons (p : Packet) (ps : List Packet) :
    echoes (p :: ps) = p.header.encode ++ echoes ps :=
  rfl

/-- How the loop ends on bytes that do not start with a packet : well only if fewer than
a header's bytes are left at end of file. -/
def dataEnd (t : HandlerTexts) (tail : StreamEnd) (rest : List UInt8) :
    Except (Stop NetError) Unit :=
  if rest.length < dataHeaderSize then
    match tail with
    | .eof => .ok ()
    | .broken => .error (.failed (.io .other))
    | .silent => .error .blocked
  else
    match DataHeader.decode (rest.take dataHeaderSize) with
    | .error e => .error (.failed (.error (.core e)))
    | .ok _ => .error (tail.stop.context t.readPayload)

/-- The input left when the loop ends. -/
def dataLeft (rest : List UInt8) : List UInt8 :=
  if rest.length < dataHeaderSize then []
  else
    match DataHeader.decode (rest.take dataHeaderSize) with
    | .error _ => rest.drop dataHeaderSize
    | .ok _ => []

/-- The loop echoes the headers of the packets at the front of the stream, and ends as
the bytes after them and the end of the stream say, whatever is in the payload buffer. -/
theorem dataLoop_eq (t : HandlerTexts) (payloadBuf : List UInt8) (c : Conn) :
    dataLoop t payloadBuf c = (dataEnd t c.tail (packets c.input).2, { c with
      input := dataLeft (packets c.input).2
      output := c.output ++ echoes (packets c.input).1 }) := by
  induction hn : c.input.length using Nat.strong_induction_on generalizing payloadBuf c with
  | _ n ih =>
  subst hn
  rcases Nat.lt_or_ge c.input.length dataHeaderSize with hlt | hge
  · rw [packets, Packet.wire.decodeAll_of_none (Packet.wire_decode_invalid
      (DataHeader.decode_take_of_short hlt)), dataLoop_short t payloadBuf hlt]
    unfold dataEnd dataLeft
    rw [if_pos hlt, if_pos hlt, echoes_nil, List.append_nil]
  · have hr := readExactOrEof_append (n := dataHeaderSize) (by simp [hge])
      (List.take_append_drop dataHeaderSize c.input).symm
    cases hd : DataHeader.decode (c.input.take dataHeaderSize) with
    | error e =>
      rw [packets, Packet.wire.decodeAll_of_none (Packet.wire_decode_invalid hd),
        dataLoop_stop hr (echoPacket_invalid t payloadBuf hd _)]
      unfold dataEnd dataLeft
      rw [if_neg hge.not_gt, if_neg hge.not_gt, hd, echoes_nil, List.append_nil]
    | ok h =>
      rcases Nat.lt_or_ge (c.input.drop dataHeaderSize).length h.payloadLen.toNat with hs | hs
      · rw [packets, Packet.wire.decodeAll_of_none (Packet.wire_decode_short hd hs),
          dataLoop_stop hr (echoPacket_short t payloadBuf hd hs)]
        unfold dataEnd dataLeft
        rw [if_neg hge.not_gt, if_neg hge.not_gt, hd, echoes_nil, List.append_nil]
      · have hlen : ((c.input.drop dataHeaderSize).take h.payloadLen.toNat).length =
            h.payloadLen.toNat := by rw [List.length_take, Nat.min_eq_left hs]
        have hsplit := (List.take_append_drop h.payloadLen.toNat (c.input.drop dataHeaderSize)).symm
        obtain ⟨buf', he⟩ := echoPacket_ok t payloadBuf hd hlen (c := { c with
          input := c.input.drop dataHeaderSize }) hsplit
        obtain ⟨p, hp, -, hdec⟩ := Packet.wire_decode_append hd hlen hsplit
        rw [dataLoop_step hr he, packets,
          Packet.wire.decodeAll_of_some Packet.wire_encode_ne_nil hdec]
        have hrest : ((c.input.drop dataHeaderSize).drop h.payloadLen.toNat).length <
            c.input.length := by
          simp only [List.length_drop]
          have : 0 < dataHeaderSize := by decide
          omega
        refine (ih _ hrest buf' { c with
          input := (c.input.drop dataHeaderSize).drop h.payloadLen.toNat
          output := c.output ++ c.input.take dataHeaderSize } rfl).trans ?_
        rw [echoes_cons, hp, ← (DataHeader.decode_eq_ok_iff.mp hd).1, ← List.append_assoc]
        rfl

/-- Apart from the contexts of its error, the end does not depend on the handler. -/
theorem dataEnd_root (t t' : HandlerTexts) (tail : StreamEnd) (rest : List UInt8) :
    (dataEnd t tail rest).mapError Stop.root = (dataEnd t' tail rest).mapError Stop.root := by
  unfold dataEnd
  split_ifs
  · rfl
  · cases DataHeader.decode (rest.take dataHeaderSize) with
    | error e => rfl
    | ok h => simp only [Except.mapError, Stop.root_context]

end Ipfusch
