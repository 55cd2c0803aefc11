import Ipfusch.ControlFrame

/-!
# The two pairs of frame functions

`write_control_frame` and `read_control_frame` of the core crate, beside the asynchronous pair
of the net crate. `FrameFormat` says what a writer and a reader of control frames are to do :
messages survive the wire in sequence, a body that is too long is not written at all, what is
accepted starts with the message's own bytes, and a frame that is cut short is an error.

`controlFrames` : both pairs do, and each function of one does what its counterpart does, apart
from its error.
-/

namespace Ipfusch

open ByteConn

/-- The text of an `IpfuschError::Serialization` : one of this program, or what `bincode` says. -/
inductive SerializationError
  | text (text : String)
  | bincode
  deriving DecidableEq, Repr

/-- The error of the asynchronous pair in the same place. -/
def SerializationError.toNet : SerializationError → NetError
  | .text _ => .tryFromInt
  | .bincode => .bincode

/-- `write_control_frame` -/
def writeControlFrame (msg : ControlMessage) : M SerializationError Unit :=
  let body := msg.serialize
  if body.length < 2 ^ 32 then do
    writeAll (Bytes.le 4 body.length)
    writeAll body
  else fail (.error (.text "control frame too large"))

/-- `read_control_frame` -/
def readControlFrame : M SerializationError ControlMessage := do
  let lenBuf ← readExact 4
  let len := Bytes.ofLe lenBuf
  let payload ← readExact len
  match ControlMessage.deserialize payload with
  | some msg => pure msg
  | none => fail (.error .bincode)

/-! ## The pairs agree -/

theorem translates_writeControlFrame (msg : ControlMessage) :
    Translates SerializationError.toNet (writeControlFrame msg) (writeControlFrameAsync msg) := by
  unfold writeControlFrame writeControlFrameAsync
  dsimp only
  split_ifs
  · exact ((translates_writeAll _).context _).bind fun _ => (translates_writeAll _).context _
  · exact fun _ => rfl

theorem translates_readControlFrame :
    Translates SerializationError.toNet readControlFrame readControlFrameAsync := by
  refine ((translates_readExact 4).context _).bind fun lenBuf => ?_
  refine ((translates_readExact _).context _).bind fun payload => ?_
  cases ControlMessage.deserialize payload with
  | none => exact fun _ => rfl
  | some msg => exact translates_pure msg

/-! ## Frames as bytes -/

/-- What is taken was framed, and the payload starts with the message's own bytes. -/
theorem takeControlFrame_sound {bs rest : List UInt8} {msg : ControlMessage}
    (h : takeControlFrame bs = some (msg, rest)) : ∃ payload,
      bs = Bytes.le 4 payload.length ++ payload ++ rest ∧ payload.length < 2 ^ 32 ∧
        ControlMessage.deserialize payload = some msg := by
  obtain ⟨⟨lenBuf, r⟩, hlen, h⟩ := Option.bind_eq_some_iff.mp h
  obtain ⟨⟨payload, r'⟩, hpayload, h⟩ := Option.bind_eq_some_iff.mp h
  obtain ⟨msg', hmsg, h⟩ := Option.map_eq_some_iff.mp h
  obtain ⟨rfl, rfl⟩ := Prod.mk.inj h
  obtain ⟨h4, rfl⟩ := Bytes.takeExact_eq_some.mp hlen
  obtain ⟨hlength, rfl⟩ := Bytes.takeExact_eq_some.mp hpayload
  have hlt : Bytes.ofLe lenBuf < 256 ^ 4 := h4 ▸ Bytes.ofLe_lt lenBuf
  refine ⟨payload, ?_, by rw [hlength]; exact hlt, hmsg⟩
  rw [hlength, Bytes.le_ofLe_of_length h4, List.append_assoc]

/-- A message that is accepted is at the front of its payload. -/
theorem ControlMessage.serialize_prefix {payload : List UInt8} {msg : ControlMessage}
    (h : ControlMessage.deserialize payload = some msg) : msg.serialize <+: payload := by
  obtain ⟨⟨msg', rest⟩, hdec, rfl⟩ := Option.map_eq_some_iff.mp h
  exact ⟨rest, (ControlMessage.bincode.sound hdec).2.symm⟩

/-- A frame that is cut short is not taken. -/
theorem takeControlFrame_short {msg : ControlMessage} (h : msg.serialize.length < 2 ^ 32)
    {bs t : List UInt8} (hbs : frame msg = bs ++ t) (ht : t ≠ []) : takeControlFrame bs = none := by
  by_contra hne
  obtain ⟨⟨msg', rest⟩, htake⟩ := Option.ne_none_iff_exists'.mp hne
  obtain ⟨payload, rfl, hpayload, -⟩ := takeControlFrame_sound htake
  rw [List.append_assoc, List.append_assoc, frame] at hbs
  obtain ⟨hlen, hbody⟩ := List.append_inj hbs (by rw [Bytes.length_le, Bytes.length_le])
  have hlength := congrArg Bytes.ofLe hlen
  rw [Bytes.ofLe_le_of_lt h, Bytes.ofLe_le_of_lt hpayload, hbody, List.length_append,
    List.length_append] at hlength
  have := List.length_pos_iff.mpr ht
  omega

/-! ## The format -/

/-- A writer and a reader of control frames. -/
structure FrameFormat {ε : Type} (write : ControlMessage → M ε Unit) (read : M ε ControlMessage) :
    Prop where
  /-- Messages that are written one after the other are read back, and what follows is left. -/
  sequence : ∀ msgs : List ControlMessage, (∀ msg ∈ msgs, msg.serialize.length < 2 ^ 32) →
    ∃ sent, (∀ c, (forEach write msgs).run c = (.ok (), { c with output := c.output ++ sent })) ∧
      ∀ c trailing, c.input = sent ++ trailing →
        (times read msgs.length).run c = (.ok msgs, { c with input := trailing })
  /-- A longer body is an error, and nothing is written. -/
  tooLong : ∀ msg : ControlMessage, 2 ^ 32 ≤ msg.serialize.length → ∀ c, ∃ e,
    (write msg).run c = (.error (.failed e), c)
  /-- The payload of a message that is read starts with the message's bytes. -/
  accepted : ∀ c c' msg, read.run c = (.ok msg, c') → ∃ payload,
    c.input = Bytes.le 4 payload.length ++ payload ++ c'.input ∧ msg.serialize <+: payload
  /-- A frame that is cut short is an error. -/
  truncated : ∀ (msg : ControlMessage) bs t, msg.serialize.length < 2 ^ 32 →
    frame msg = bs ++ t → t ≠ [] → ∀ c, c.input = bs → c.tail = .eof → ∃ e c',
      read.run c = (.error (.failed e), c')

/-- What a writer and a reader have to do with a single frame. -/
theorem frameFormat_of {ε : Type} {write : ControlMessage → M ε Unit} {read : M ε ControlMessage}
    (hshort : ∀ {msg}, msg.serialize.length < 2 ^ 32 → ∀ c,
      (write msg).run c = (.ok (), { c with output := c.output ++ frame msg }))
    (hlong : ∀ {msg}, 2 ^ 32 ≤ msg.serialize.length → ∀ c, ∃ e,
      (write msg).run c = (.error (.failed e), c))
    (hread : Parses read takeControlFrame)
    (heof : ∀ c, takeControlFrame c.input = none → c.tail = .eof → ∃ e c',
      read.run c = (.error (.failed e), c')) : FrameFormat write read where
  sequence msgs hmsgs := by
    refine ⟨msgs.flatMap frame, forEach_run fun msg hmsg => hshort (hmsgs msg hmsg), ?_⟩
    refine times_run fun msg hmsg c rest hc => hread.ok ?_
    rw [hc, takeControlFrame_frame (framed_iff.mpr (hmsgs msg hmsg))]
  tooLong msg h := hlong h
  accepted c c' msg h := by
    cases htake : takeControlFrame c.input with
    | none =>
      obtain ⟨e, input, he⟩ := hread.error htake
      rw [he] at h
      cases h
    | some r =>
      obtain ⟨msg', rest⟩ := r
      rw [hread.ok htake] at h
      obtain ⟨hmsg, rfl⟩ := Prod.mk.inj h
      obtain rfl := Except.ok.inj hmsg
      obtain ⟨payload, hbs, -, hmsg⟩ := takeControlFrame_sound htake
      exact ⟨payload, hbs, ControlMessage.serialize_prefix hmsg⟩
  truncated msg bs t h hbs ht c hc htail :=
    heof c (by rw [hc]; exact takeControlFrame_short h hbs ht) htail

/-! ## The synchronous pair -/

theorem writeControlFrame_run {msg : ControlMessage} (h : msg.serialize.length < 2 ^ 32)
    (c : Conn) : (writeControlFrame msg).run c =
      (.ok (), { c with output := c.output ++ frame msg }) :=
  ((translates_writeControlFrame msg).ok).mpr (writeControlFrameAsync_run h c)

theorem writeControlFrame_long {msg : ControlMessage} (h : 2 ^ 32 ≤ msg.serialize.length)
    (c : Conn) : (writeControlFrame msg).run c =
      (.error (.failed (.error (.text "control frame too large"))), c) := by
  unfold writeControlFrame
  dsimp only
  rw [if_neg h.not_gt, fail_run]

theorem parses_readControlFrame : Parses readControlFrame takeControlFrame :=
  translates_readControlFrame.parses parses_readControlFrameAsync

theorem prompt_readControlFrame : Prompt readControlFrame := by
  refine (prompt_readExact 4).bind fun lenBuf => (prompt_readExact _).bind fun payload => ?_
  cases ControlMessage.deserialize payload with
  | none => exact prompt_fail _
  | some msg => exact prompt_pure msg

theorem frameFormat_sync : FrameFormat writeControlFrame readControlFrame :=
  frameFormat_of writeControlFrame_run (fun h c => ⟨_, writeControlFrame_long h c⟩)
    parses_readControlFrame fun _ h htail =>
      parses_readControlFrame.failed prompt_readControlFrame h (by rw [htail]; nofun)

/-- Both pairs keep the format, and agree on each frame. -/
theorem controlFrames :
    FrameFormat writeControlFrame readControlFrame ∧
      FrameFormat writeControlFrameAsync readControlFrameAsync ∧
      (∀ msg, Translates SerializationError.toNet (writeControlFrame msg)
        (writeControlFrameAsync msg)) ∧
      Translates SerializationError.toNet readControlFrame readControlFrameAsync := by
  refine ⟨frameFormat_sync, frameFormat_of writeControlFrameAsync_run ?_
    parses_readControlFrameAsync ?_, translates_writeControlFrame, translates_readControlFrame⟩
  · intro msg h c
    exact (translates_writeControlFrame msg).failed (writeControlFrame_long h c)
  · intro c h htail
    obtain ⟨e, c', he⟩ := parses_readControlFrame.failed prompt_readControlFrame h
      (by rw [htail]; nofun)
    obtain ⟨e', he'⟩ := translates_readControlFrame.failed he
    exact ⟨e', c', he'⟩

end Ipfusch
