import Ipfusch.Handshake

/-!
# Sender framing against receiver framing

The send loops of `run_stream_tcp` and `run_stream_quic` write the same bytes :
`sentBytes`, one frame of `DATA_HEADER_SIZE + payload_bytes` bytes for each packet, in a
buffer that is allocated once. The header tells the receiver the payload's length as a
`u32`, the frame is as long as the `usize` says.

`framingAgrees_iff` : the server's data loop reads the packets that were sent exactly if
the payload's length fits the field, or nothing is sent. The first frame of any larger
payload leaves the loop in the middle of its zeros.
-/

namespace Ipfusch

open ByteConn

/-! ## The send loop -/

/-- `vec![0u8; DATA_HEADER_SIZE + payload_bytes]`. A buffer of more than `isize::MAX` bytes
cannot be allocated, and the task panics before it sends a packet. -/
def newFrame (payloadBytes : UInt64) : Option (List UInt8) :=
  let len := dataHeaderSize + payloadBytes.toNat
  if len < 2 ^ 63 then some (List.replicate len 0) else none

/-- The header of a packet of the stream. -/
def packetHeader (spec : StreamRunSpec) (seq sendMonoNs : UInt64) : DataHeader :=
  DataHeader.new spec.sessionId spec.streamId seq sendMonoNs spec.payloadBytes.toUInt32

/-- `frame[..DATA_HEADER_SIZE].copy_from_slice(&header.encode())` -/
def fillFrame (frame : List UInt8) (header : DataHeader) : List UInt8 :=
  Bytes.copySlice frame 0 dataHeaderSize header.encode

/-- What the loop writes for packets sent at the times `monos`, after `seq` packets. -/
def sendLoop (spec : StreamRunSpec) : List UInt8 → UInt64 → List UInt64 → List UInt8
  | _, _, [] => []
  | frame, seq, sendMonoNs :: monos =>
    let seq := seq + 1
    let frame := fillFrame frame (packetHeader spec seq sendMonoNs)
    frame ++ sendLoop spec frame seq monos

/-- What a stream writes after its handshake. -/
def sentBytes (spec : StreamRunSpec) (monos : List UInt64) : List UInt8 :=
  match newFrame spec.payloadBytes with
  | some frame => sendLoop spec frame 0 monos
  | none => []

/-- The headers of packets sent at the times `monos`, after `seq` packets. -/
def sentHeaders (spec : StreamRunSpec) : UInt64 → List UInt64 → List DataHeader
  | _, [] => []
  | seq, sendMonoNs :: monos =>
    packetHeader spec (seq + 1) sendMonoNs :: sentHeaders spec (seq + 1) monos

/-- The server's data loop, fed with all packets of the stream and then closed, reads
each of them, does not fail, and echoes their headers in order. -/
def FramingAgrees (t : HandlerTexts) (spec : StreamRunSpec) (monos : List UInt64) : Prop :=
  (packets (sentBytes spec monos)).1.map Packet.header = sentHeaders spec 0 monos ∧
    (dataLoop t [] { input := sentBytes spec monos, tail := .eof }).1 = .ok () ∧
    (dataLoop t [] { input := sentBytes spec monos, tail := .eof }).2.output =
      (sentHeaders spec 0 monos).flatMap DataHeader.encode

/-! ## Frames -/

/-- The buffer behind its header : the payload, all zeros. -/
def ZeroPayload (spec : StreamRunSpec) (frame : List UInt8) : Prop :=
  frame.drop dataHeaderSize = List.replicate spec.payloadBytes.toNat 0

theorem zeroPayload_newFrame {spec : StreamRunSpec} {frame : List UInt8}
    (h : newFrame spec.payloadBytes = some frame) : ZeroPayload spec frame := by
  unfold newFrame at h
  dsimp only at h
  split_ifs at h
  obtain rfl := Option.some.inj h
  unfold ZeroPayload
  rw [List.drop_replicate, Nat.add_sub_cancel_left]

/-- Filling in a header leaves the payload. -/
theorem fillFrame_eq {spec : StreamRunSpec} {frame : List UInt8} (h : ZeroPayload spec frame)
    (header : DataHeader) :
    fillFrame frame header = header.encode ++ List.replicate spec.payloadBytes.toNat 0 := by
  rw [fillFrame, Bytes.copySlice, List.take_zero, List.nil_append, h]

theorem zeroPayload_fillFrame {spec : StreamRunSpec} {frame : List UInt8}
    (h : ZeroPayload spec frame) (header : DataHeader) :
    ZeroPayload spec (fillFrame frame header) := by
  rw [ZeroPayload, fillFrame_eq h, ← DataHeader.length_encode header, List.drop_left]

/-! ## Payloads whose length fits -/

theorem payloadLen_eq {spec : StreamRunSpec} (h : spec.payloadBytes.toNat < 2 ^ 32)
    (seq sendMonoNs : UInt64) :
    (packetHeader spec seq sendMonoNs).payloadLen.toNat = spec.payloadBytes.toNat := by
  simp only [packetHeader, DataHeader.new, UInt64.toNat_toUInt32]
  exact Nat.mod_eq_of_lt h

/-- The packet of a frame. -/
def framePacket {spec : StreamRunSpec} (h : spec.payloadBytes.toNat < 2 ^ 32)
    (seq sendMonoNs : UInt64) : Packet where
  header := packetHeader spec seq sendMonoNs
  payload := List.replicate spec.payloadBytes.toNat 0
  magic := rfl
  version := rfl
  length_payload := by rw [List.length_replicate, payloadLen_eq h]

/-- A frame with its header filled in is its packet. -/
theorem fillFrame_eq_wire {spec : StreamRunSpec} (h : spec.payloadBytes.toNat < 2 ^ 32)
    {frame : List UInt8} (hf : ZeroPayload spec frame) (seq sendMonoNs : UInt64) :
    fillFrame frame (packetHeader spec seq sendMonoNs) =
      Packet.wire.encode (framePacket h seq sendMonoNs) :=
  fillFrame_eq hf _

/-- What the loop writes are packets with the headers it made. -/
theorem sendLoop_eq {spec : StreamRunSpec} (h : spec.payloadBytes.toNat < 2 ^ 32) :
    ∀ (monos : List UInt64) (frame : List UInt8) (seq : UInt64), ZeroPayload spec frame →
      ∃ ps : List Packet, sendLoop spec frame seq monos = ps.flatMap Packet.wire.encode ∧
        ps.map Packet.header = sentHeaders spec seq monos
  | [], _, _, _ => ⟨[], rfl, rfl⟩
  | sendMonoNs :: monos, frame, seq, hf => by
    obtain ⟨ps, hps, hheaders⟩ := sendLoop_eq h monos _ (seq + 1)
      (zeroPayload_fillFrame hf (packetHeader spec (seq + 1) sendMonoNs))
    refine ⟨framePacket h (seq + 1) sendMonoNs :: ps, ?_, ?_⟩
    · rw [sendLoop, hps, fillFrame_eq_wire h hf, List.flatMap_cons]
    · rw [List.map_cons, hheaders]
      rfl

theorem echoes_eq_flatMap_header (ps : List Packet) :
    echoes ps = (ps.map Packet.header).flatMap DataHeader.encode := by
  rw [echoes, List.flatMap_map]

theorem packets_flatMap (ps : List Packet) :
    packets (ps.flatMap Packet.wire.encode) = (ps, []) := by
  have h := Packet.wire.decodeAll_flatMap Packet.wire_encode_ne_nil ps (fun _ _ => trivial) []
  have hnil : Packet.wire.decodeAll [] = ([], []) := Packet.wire.decodeAll_of_none rfl
  rw [List.append_nil, hnil, List.append_nil] at h
  exact h

/-- The bytes of some packets : the loop echoes them all and ends well. -/
theorem dataLoop_packets (t : HandlerTexts) (ps : List Packet) :
    dataLoop t [] { input := ps.flatMap Packet.wire.encode, tail := .eof } =
      (.ok (), { input := [], tail := .eof, output := echoes ps }) := by
  rw [dataLoop_eq, packets_flatMap]
  rfl

theorem framingAgrees_of_fits (t : HandlerTexts) {spec : StreamRunSpec}
    (h : spec.payloadBytes.toNat < 2 ^ 32) (monos : List UInt64) : FramingAgrees t spec monos := by
  have hframe : newFrame spec.payloadBytes =
      some (List.replicate (dataHeaderSize + spec.payloadBytes.toNat) 0) := by
    unfold newFrame dataHeaderSize
    dsimp only
    rw [if_pos (by omega)]
  obtain ⟨ps, hps, hheaders⟩ := sendLoop_eq h monos _ 0 (zeroPayload_newFrame hframe)
  unfold FramingAgrees sentBytes
  rw [hframe]
  dsimp only
  rw [hps, packets_flatMap, dataLoop_packets, ← hheaders, ← echoes_eq_flatMap_header]
  exact ⟨rfl, rfl, rfl⟩

/-! ## Larger payloads -/

/-- Zeros are no header. -/
theorem decode_zeros : DataHeader.decode (List.replicate dataHeaderSize 0) =
    .error .invalidPacketHeader := by
  decide

/-- A frame whose payload is longer than its header says is one packet, and then zeros that
are no header. -/
theorem packets_longer {spec : StreamRunSpec} (h : 2 ^ 32 ≤ spec.payloadBytes.toNat)
    (seq sendMonoNs : UInt64) (rest : List UInt8) : ∃ p zeros,
      packets ((packetHeader spec seq sendMonoNs).encode ++
        List.replicate spec.payloadBytes.toNat 0 ++ rest) = ([p], zeros) ∧
      dataHeaderSize ≤ zeros.length ∧
      DataHeader.decode (zeros.take dataHeaderSize) = .error .invalidPacketHeader := by
  have hlen : (packetHeader spec seq sendMonoNs).payloadLen.toNat + 2 ^ 32 ≤
      spec.payloadBytes.toNat := by
    have hmod : (packetHeader spec seq sendMonoNs).payloadLen.toNat =
        spec.payloadBytes.toNat % 2 ^ 32 := by
      simp only [packetHeader, DataHeader.new, UInt64.toNat_toUInt32]
    rw [hmod]
    omega
  generalize hheader : packetHeader spec seq sendMonoNs = header at hlen ⊢
  generalize hleft : spec.payloadBytes.toNat - header.payloadLen.toNat = left
  have hzeros : List.replicate spec.payloadBytes.toNat (0 : UInt8) =
      List.replicate header.payloadLen.toNat 0 ++ List.replicate left 0 := by
    rw [List.replicate_append_replicate]
    congr 1
    omega
  let p : Packet := {
    header := header
    payload := List.replicate header.payloadLen.toNat 0
    magic := by rw [← hheader]; rfl
    version := by rw [← hheader]; rfl
    length_payload := List.length_replicate }
  have hsplit : header.encode ++ List.replicate spec.payloadBytes.toNat 0 ++ rest =
      Packet.wire.encode p ++ (List.replicate left 0 ++ rest) := by
    rw [hzeros, ← List.append_assoc, List.append_assoc]
    rfl
  have htake : (List.replicate left (0 : UInt8) ++ rest).take dataHeaderSize =
      List.replicate dataHeaderSize 0 := by
    unfold dataHeaderSize
    rw [List.take_append_of_le_length (by rw [List.length_replicate]; omega), List.take_replicate,
      Nat.min_eq_left (by omega)]
  refine ⟨p, List.replicate left 0 ++ rest, ?_, ?_, ?_⟩
  · rw [hsplit, packets, Packet.wire.decodeAll_of_some Packet.wire_encode_ne_nil
      (Packet.wire.decode_encode trivial _), Packet.wire.decodeAll_of_none
      (Packet.wire_decode_invalid (by rw [htake, decode_zeros]))]
  · unfold dataHeaderSize
    rw [List.length_append, List.length_replicate]
    omega
  · rw [htake, decode_zeros]

/-- With packets to send and a larger payload, the loop fails, or gets nothing. -/
theorem not_framingAgrees_of_longer (t : HandlerTexts) {spec : StreamRunSpec}
    (h : 2 ^ 32 ≤ spec.payloadBytes.toNat) (sendMonoNs : UInt64) (monos : List UInt64) :
    ¬FramingAgrees t spec (sendMonoNs :: monos) := by
  rintro ⟨hheaders, hok, -⟩
  cases hframe : newFrame spec.payloadBytes with
  | none =>
    rw [sentBytes, hframe] at hheaders
    have hnil : packets [] = ([], []) := packets_flatMap []
    dsimp only at hheaders
    rw [hnil] at hheaders
    cases hheaders
  | some frame =>
    have hsent : sentBytes spec (sendMonoNs :: monos) =
        (packetHeader spec (0 + 1) sendMonoNs).encode ++
          List.replicate spec.payloadBytes.toNat 0 ++ sendLoop spec
            (fillFrame frame (packetHeader spec (0 + 1) sendMonoNs)) (0 + 1) monos := by
      rw [← fillFrame_eq (zeroPayload_newFrame hframe), sentBytes, hframe]
      rfl
    obtain ⟨p, zeros, hp, hlen, hdec⟩ := packets_longer h (0 + 1) sendMonoNs (sendLoop spec
      (fillFrame frame (packetHeader spec (0 + 1) sendMonoNs)) (0 + 1) monos)
    rw [dataLoop_eq] at hok
    dsimp only at hok
    rw [hsent, hp] at hok
    unfold dataEnd at hok
    dsimp only at hok
    rw [if_neg hlen.not_gt, hdec] at hok
    cases hok

/-- Sender and receiver agree exactly if the payload's length fits the header's field, or no
packet is sent. -/
theorem framingAgrees_iff (t : HandlerTexts) (spec : StreamRunSpec) (monos : List UInt64) :
    FramingAgrees t spec monos ↔ spec.payloadBytes.toNat < 2 ^ 32 ∨ monos = [] := by
  constructor
  · intro hagrees
    by_cases h : spec.payloadBytes.toNat < 2 ^ 32
    · exact Or.inl h
    · cases monos with
      | nil => exact Or.inr rfl
      | cons sendMonoNs monos =>
        exact absurd hagrees (not_framingAgrees_of_longer t (not_lt.mp h) sendMonoNs monos)
  · rintro (h | rfl)
    · exact framingAgrees_of_fits t h monos
    · have hsent : sentBytes spec [] = [] := by
        unfold sentBytes
        cases newFrame spec.payloadBytes <;> rfl
      have hloop := dataLoop_packets t []
      rw [List.flatMap_nil] at hloop
      unfold FramingAgrees
      rw [hsent, hloop]
      exact ⟨congrArg (fun q => q.1.map Packet.header) (packets_flatMap []), rfl, rfl⟩

/-- One packet of 4 GiB : the field says its payload is empty. -/
theorem not_framingAgrees_four_gib : ¬FramingAgrees tcpTexts
    { sessionId := 1, streamId := 0, transport := .tcp, duration := 1000000000, warmup := 0,
      payloadBytes := 4294967296, rateBps := none, token := none, timeout := 1000000000 } [0] :=
  not_framingAgrees_of_longer tcpTexts (by decide) 0 []

end Ipfusch
