import Ipfusch.ByteConn
import Ipfusch.Protocol

/-!
# Control frames on a stream

`write_control_frame_async` and `read_control_frame_async` : a `u32` length and the
`bincode` body. `takeControlFrame` is the reader as a parser of bytes
(`parses_readControlFrameAsync`), and reads back what is written
(`takeControlFrame_frame`).
-/

namespace Ipfusch

open ByteConn

open PrefixCodec (length_utf8_le)

/-- The errors that start in this program or in a decoder. -/
inductive NetError
  | core (e : IpfuschError)
  | bincode
  /-- `u32::try_from` of a length that does not fit. -/
  | tryFromInt
  | msg (text : String)
  deriving DecidableEq, Repr

/-- A program of the net crate on a connection. -/
abbrev Net := M NetError

/-- `write_control_frame_async` -/
def writeControlFrameAsync (msg : ControlMessage) : Net Unit :=
  let payload := msg.serialize
  if payload.length < 2 ^ 32 then do
    context "write control len" (writeAll (Bytes.le 4 payload.length))
    context "write control payload" (writeAll payload)
  else fail (.context "control frame too large" (.error .tryFromInt))

/-- `read_control_frame_async` -/
def readControlFrameAsync : Net ControlMessage := do
  let lenBuf ← context "read control len" (readExact 4)
  let len := Bytes.ofLe lenBuf
  let payload ← context "read control payload" (readExact len)
  match ControlMessage.deserialize payload with
  | some msg => pure msg
  | none => fail (.context "deserialize control payload" (.error .bincode))

/-- The control frame at the front of a byte string. -/
def takeControlFrame (bs : List UInt8) : Option (ControlMessage × List UInt8) :=
  (Bytes.takeExact 4 bs).bind fun r => (Bytes.takeExact (Bytes.ofLe r.1) r.2).bind fun q =>
    (ControlMessage.deserialize q.1).map fun msg => (msg, q.2)

/-- The reader is the parser run on the input. -/
theorem parses_readControlFrameAsync : Parses readControlFrameAsync takeControlFrame := by
  refine ((parses_readExact 4).context _).bind
    (q := fun lenBuf bs => (Bytes.takeExact (Bytes.ofLe lenBuf) bs).bind fun q =>
      (ControlMessage.deserialize q.1).map fun msg => (msg, q.2)) fun lenBuf => ?_
  refine ((parses_readExact (Bytes.ofLe lenBuf)).context _).bind
    (q := fun payload bs => (ControlMessage.deserialize payload).map fun msg => (msg, bs))
    fun payload => parses_check (fun msg h => ?_) fun h => ?_
  · rw [h]
  · rw [h]
    exact ⟨_, rfl⟩

/-- The bytes of a control frame. -/
def frame (msg : ControlMessage) : List UInt8 :=
  Bytes.le 4 msg.serialize.length ++ msg.serialize

/-- The length fields of the frame and of the message in it do not overflow. -/
def Framed (msg : ControlMessage) : Prop :=
  ControlMessage.bincode.Fits msg ∧ msg.serialize.length < 2 ^ 32

/-- The length fields of a message do not overflow before that of its frame does. -/
theorem framed_iff {msg : ControlMessage} : Framed msg ↔ msg.serialize.length < 2 ^ 32 :=
  ⟨And.right, fun h => ⟨ControlMessage.fits_of_length (by omega), h⟩⟩

theorem takeControlFrame_frame {msg : ControlMessage} (h : Framed msg) (rest : List UInt8) :
    takeControlFrame (frame msg ++ rest) = some (msg, rest) := by
  rw [takeControlFrame, frame, List.append_assoc, Bytes.takeExact_append (Bytes.length_le 4 _),
    Option.bind_some, Bytes.ofLe_le_of_lt h.2, Bytes.takeExact_append rfl, Option.bind_some,
    ControlMessage.deserialize_serialize h.1, Option.map_some]

theorem writeControlFrameAsync_run {msg : ControlMessage} (h : msg.serialize.length < 2 ^ 32)
    (c : Conn) : (writeControlFrameAsync msg).run c =
      (.ok (), { c with output := c.output ++ frame msg }) := by
  unfold writeControlFrameAsync
  dsimp only
  rw [if_pos h, bind_ok (context_ok (writeAll_run _ c)), context_ok (writeAll_run _ _), frame,
    List.append_assoc]

/-! ## Messages that fit into a frame -/

/-- An `Ack` with a short reason fits into a frame. -/
theorem framed_ack (sessionId : UInt64) (accepted : Bool) {reason : Option String}
    (h : ∀ r, reason = some r → r.length ≤ 2 ^ 16) : Framed (.ack sessionId accepted reason) := by
  rw [framed_iff]
  cases reason with
  | none =>
    simp [ControlMessage.serialize, ControlMessage.bincode, ControlMessage.fieldsEquiv,
      ControlMessage.fieldsCodec]
  | some r =>
    have hlen := length_utf8_le r
    have hr := h r rfl
    simp [ControlMessage.serialize, ControlMessage.bincode, ControlMessage.fieldsEquiv,
      ControlMessage.fieldsCodec]
    omega

/-- A `Hello` with short strings fits into a frame. -/
theorem framed_hello (version : UInt16) {clientName c₁ c₂ : String} (tokenHash : Option Digest)
    (h : clientName.length ≤ 2 ^ 16) (h₁ : c₁.length ≤ 2 ^ 16) (h₂ : c₂.length ≤ 2 ^ 16) :
    Framed (.hello version clientName tokenHash [c₁, c₂]) := by
  rw [framed_iff]
  have hlen := length_utf8_le clientName
  have hlen₁ := length_utf8_le c₁
  have hlen₂ := length_utf8_le c₂
  cases tokenHash <;>
  · simp [ControlMessage.serialize, ControlMessage.bincode, ControlMessage.fieldsEquiv,
      ControlMessage.fieldsCodec]
    omega

/-- A `StartSession` with a short transport name fits into a frame. -/
theorem framed_startSession (sessionId : UInt64) {transport : String} (streams : UInt16)
    (durationMs payloadBytes intervalMs : UInt64) (rateBps : Option UInt64)
    (h : transport.length ≤ 2 ^ 16) : Framed (.startSession sessionId transport streams
      durationMs payloadBytes intervalMs rateBps) := by
  rw [framed_iff]
  have hlen := length_utf8_le transport
  cases rateBps <;>
  · simp [ControlMessage.serialize, ControlMessage.bincode, ControlMessage.fieldsEquiv,
      ControlMessage.fieldsCodec]
    omega

end Ipfusch
