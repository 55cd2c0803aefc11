import Ipfusch.Server

/-!
# How a session ends

After an accepted handshake the stream handlers read packets until the stream ends. A payload that
is cut short is an error. `read_exact_or_eof`, which reads the headers, takes every end of file
for the end of the session, also one inside a header.

`endsOnBoundary_iff` : a session of a stream that ends is successful exactly on a packet boundary,
and fails otherwise, unless the stream ends inside a header.
-/

namespace Ipfusch

open ByteConn

/-! ## Streams -/

/-- The bytes are well-formed packets, one after the other. -/
def Complete (data : List UInt8) : Prop :=
  ∃ ps : List Packet, data = ps.flatMap fun p => p.header.encode ++ p.payload

/-- The bytes are well-formed packets and a part of a header. -/
def CutInHeader (data : List UInt8) : Prop :=
  ∃ (ps : List Packet) (rest : List UInt8),
    data = ps.flatMap (fun p => p.header.encode ++ p.payload) ++ rest ∧
      rest ≠ [] ∧ rest.length < dataHeaderSize

/-- Success exactly on a packet boundary, and an error otherwise. -/
structure EndsOnBoundary (data : List UInt8) (r : Except (Stop NetError) Unit × Conn) : Prop where
  ok_iff : r.1 = .ok () ↔ Complete data
  error : ¬Complete data → ∃ e, r.1 = .error (.failed e)

/-- Less than a header does not start with a packet. -/
theorem packets_append_short (ps : List Packet) {rest : List UInt8}
    (h : rest.length < dataHeaderSize) :
    packets (ps.flatMap (fun p => p.header.encode ++ p.payload) ++ rest) = (ps, rest) := by
  refine decomposes_iff.mp ⟨rfl, fun p rest' hrest => ?_⟩
  have hlen := DataHeader.length_encode p.header
  rw [hrest, List.length_append, List.length_append] at h
  omega

/-- The packets at the front, and the bytes that are left. -/
theorem packets_eq (data : List UInt8) :
    data = (packets data).1.flatMap (fun p => p.header.encode ++ p.payload) ++ (packets data).2 :=
  (decomposes_iff.mpr (rfl : packets data = ((packets data).1, (packets data).2))).eq

theorem complete_iff {data : List UInt8} : Complete data ↔ (packets data).2 = [] := by
  constructor
  · rintro ⟨ps, rfl⟩
    have h := @packets_append_short ps [] (by decide)
    rw [List.append_nil] at h
    rw [h]
  · intro h
    refine ⟨(packets data).1, ?_⟩
    rw [← List.append_nil (List.flatMap _ _), ← h]
    exact packets_eq data

theorem cutInHeader_iff {data : List UInt8} :
    CutInHeader data ↔ (packets data).2 ≠ [] ∧ (packets data).2.length < dataHeaderSize := by
  constructor
  · rintro ⟨ps, rest, rfl, hne, hlen⟩
    rw [packets_append_short ps hlen]
    exact ⟨hne, hlen⟩
  · rintro ⟨hne, hlen⟩
    exact ⟨_, _, packets_eq data, hne, hlen⟩

/-! ## The end of the loop -/

theorem dataEnd_of_short (t : HandlerTexts) {rest : List UInt8}
    (h : rest.length < dataHeaderSize) : dataEnd t .eof rest = .ok () :=
  if_pos h

/-- Where a header is left but no packet, the loop fails. -/
theorem dataEnd_of_le (t : HandlerTexts) {rest : List UInt8} (h : dataHeaderSize ≤ rest.length) :
    ∃ e, dataEnd t .eof rest = .error (.failed e) := by
  rw [dataEnd, if_neg h.not_gt]
  cases DataHeader.decode (rest.take dataHeaderSize) with
  | error e => exact ⟨_, rfl⟩
  | ok header => exact ⟨_, rfl⟩

/-- The loop ends as it should exactly if the stream does not end inside a header. -/
theorem endsOnBoundary_of_dataEnd (t : HandlerTexts) {data : List UInt8}
    {r : Except (Stop NetError) Unit × Conn} (hr : r.1 = dataEnd t .eof (packets data).2) :
    EndsOnBoundary data r ↔ ¬CutInHeader data := by
  rw [cutInHeader_iff, not_and, not_lt]
  constructor
  · rintro ⟨hok, -⟩ hne
    by_contra hlt
    rw [not_le] at hlt
    rw [hr, dataEnd_of_short t hlt, complete_iff] at hok
    exact hne (hok.mp rfl)
  · intro hcut
    by_cases hnil : (packets data).2 = []
    · have hcomplete := complete_iff.mpr hnil
      refine ⟨⟨fun _ => hcomplete, fun _ => ?_⟩, fun h => absurd hcomplete h⟩
      rw [hr, hnil]
      exact dataEnd_of_short t (by decide)
    · have hcomplete : ¬Complete data := fun h => hnil (complete_iff.mp h)
      obtain ⟨e, he⟩ := dataEnd_of_le t (hcut hnil)
      refine ⟨⟨fun hok => ?_, fun h => absurd h hcomplete⟩, fun _ => ⟨e, hr.trans he⟩⟩
      rw [hr, he] at hok
      cases hok

section Handlers

variable (sha256 : List UInt8 → Digest)

/-- After an accepted handshake a handler ends as its loop does. -/
theorem handleStream_dataEnd (t : HandlerTexts) {token : Option String} {bs data : List UInt8}
    {hello start : ControlMessage} (h : takeSession bs = some ((hello, start), data))
    (ho : Opens sha256 token hello start) (tail : StreamEnd) :
    ((handleStream sha256 t token).run { input := bs, tail := tail }).1 =
      dataEnd t tail (packets data).2 := by
  rw [handleStream_run, serverHandshake_opens sha256 t h ho]
  dsimp only
  rw [dataLoop_eq]

theorem tcp_endsOnBoundary_iff {token : Option String} {bs data : List UInt8}
    {hello start : ControlMessage} (h : takeSession bs = some ((hello, start), data))
    (ho : Opens sha256 token hello start) :
    EndsOnBoundary data ((handleTcpConnection sha256 token).run { input := bs, tail := .eof }) ↔
      ¬CutInHeader data :=
  endsOnBoundary_of_dataEnd tcpTexts (handleStream_dataEnd sha256 tcpTexts h ho .eof)

theorem quic_endsOnBoundary_iff {token : Option String} {bs data : List UInt8}
    {hello start : ControlMessage} (h : takeSession bs = some ((hello, start), data))
    (ho : Opens sha256 token hello start) :
    EndsOnBoundary data ((handleQuicStream sha256 token).run { input := bs, tail := .eof }) ↔
      ¬CutInHeader data := by
  refine endsOnBoundary_of_dataEnd quicTexts ?_
  rw [(handleQuicStream_run sha256 token _).1, handleStream_dataEnd sha256 quicTexts h ho]

/-- Both handlers end on a packet boundary, for a stream that ends after an accepted handshake,
exactly if it does not end inside a header. -/
theorem endsOnBoundary_iff {token : Option String} {bs data : List UInt8}
    {hello start : ControlMessage} (h : takeSession bs = some ((hello, start), data))
    (ho : Opens sha256 token hello start) :
    (EndsOnBoundary data ((handleTcpConnection sha256 token).run { input := bs, tail := .eof }) ↔
      ¬CutInHeader data) ∧
    (EndsOnBoundary data ((handleQuicStream sha256 token).run { input := bs, tail := .eof }) ↔
      ¬CutInHeader data) :=
  ⟨tcp_endsOnBoundary_iff sha256 h ho, quic_endsOnBoundary_iff sha256 h ho⟩

end Handlers

/-! ## A session without a token -/

/-- A `Hello` without a token. -/
def plainHello : ControlMessage :=
  .hello protocolVersion "c" none ["tcp", "multistream"]

/-- A `StartSession` for one stream. -/
def plainStart : ControlMessage :=
  .startSession 7 "tcp" 1 1000 2 100 none

theorem takeSession_plain (data : List UInt8) :
    takeSession (frame plainHello ++ (frame plainStart ++ data)) =
      some ((plainHello, plainStart), data) := by
  have hhello : Framed plainHello := framed_hello _ _ (by decide) (by decide) (by decide)
  have hstart : Framed plainStart := framed_startSession _ _ _ _ _ _ (by decide)
  rw [takeSession, takeControlFrame_frame hhello, Option.bind_some,
    takeControlFrame_frame hstart, Option.map_some]

theorem opens_plain (sha256 : List UInt8 → Digest) : Opens sha256 none plainHello plainStart :=
  ⟨⟨_, _, _, rfl, fun _ h => absurd h (by simp)⟩, _, _, _, _, _, _, _, rfl⟩

/-- One packet with two bytes of payload. -/
theorem endsOnBoundary_iff_one :
    let sha256 : List UInt8 → Digest := fun _ => List.Vector.replicate 32 0
    let data := (DataHeader.new 7 0 1 0 2).encode ++ [83, 70]
    let bs := frame plainHello ++ (frame plainStart ++ data)
    (EndsOnBoundary data ((handleTcpConnection sha256 none).run { input := bs, tail := .eof }) ↔
      ¬CutInHeader data) ∧
    (EndsOnBoundary data ((handleQuicStream sha256 none).run { input := bs, tail := .eof }) ↔
      ¬CutInHeader data) :=
  endsOnBoundary_iff _ (takeSession_plain _) (opens_plain _)

theorem cutInHeader_half : CutInHeader (List.replicate 20 0) :=
  ⟨[], _, rfl, by decide, by decide⟩

/-- A session that ends after half a header is successful. -/
theorem not_endsOnBoundary_halfHeader :
    let sha256 : List UInt8 → Digest := fun _ => List.Vector.replicate 32 0
    let data := List.replicate 20 (0 : UInt8)
    let bs := frame plainHello ++ (frame plainStart ++ data)
    ¬EndsOnBoundary data ((handleTcpConnection sha256 none).run { input := bs, tail := .eof }) ∧
      ¬EndsOnBoundary data ((handleQuicStream sha256 none).run { input := bs, tail := .eof }) := by
  intro sha256 data bs
  have hsession : takeSession bs = some ((plainHello, plainStart), data) := takeSession_plain data
  have hopens := opens_plain sha256
  exact ⟨fun h => (tcp_endsOnBoundary_iff sha256 hsession hopens).mp h cutInHeader_half,
    fun h => (quic_endsOnBoundary_iff sha256 hsession hopens).mp h cutInHeader_half⟩

end Ipfusch
