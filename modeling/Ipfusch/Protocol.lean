import Ipfusch.PrefixCodec

/-!
# Wire protocol

The data header with its hand-written layout, the control messages with their
`bincode` 1.3 encoding (fixed-width little-endian integers, `u32` variant index,
`u64` lengths, one-byte option and bool tags, UTF-8 checked, trailing bytes
allowed), and the token check.

`DataHeader.encode` and `DataHeader.decode` are the source's : a zeroed buffer
overwritten at fixed offsets, and slices at the same offsets. `DataHeader.wire` is the
layout as a `PrefixCodec`, the fields in order. `encode_eq_wire` and `wire_decode`
connect the two, and `decode_eq_ok_iff` is what the rest of the development uses of
a header.

SHA-256 is a parameter : nothing here depends on which function of the token's bytes
it is.
-/

namespace Ipfusch

open PrefixCodec (utf8)

/-- `PROTOCOL_VERSION` -/
def protocolVersion : UInt16 := 1

/-- `DATA_HEADER_SIZE` -/
def dataHeaderSize : ℕ := 40

/-- `DATA_MAGIC` -/
def dataMagic : UInt32 := 0x49504653

/-- The errors of the core crate that a modelled function returns. -/
inductive IpfuschError
  | invalidPacketHeader
  | protocolVersionMismatch (expected got : UInt16)
  deriving DecidableEq, Repr

/-! ## Data headers -/

/-- The fixed-size header in front of every payload. -/
@[ext] structure DataHeader where
  magic : UInt32
  version : UInt16
  flags : UInt16
  sessionId : UInt64
  streamId : UInt32
  seq : UInt64
  sendMonoNs : UInt64
  payloadLen : UInt32
  deriving DecidableEq, Repr

namespace DataHeader

/-- `DataHeader::new` -/
def new (sessionId : UInt64) (streamId : UInt32) (seq sendMonoNs : UInt64)
    (payloadLen : UInt32) : DataHeader where
  magic := dataMagic
  version := protocolVersion
  flags := 0
  sessionId := sessionId
  streamId := streamId
  seq := seq
  sendMonoNs := sendMonoNs
  payloadLen := payloadLen

/-- `DataHeader::encode` -/
def encode (h : DataHeader) : List UInt8 :=
  let buf := List.replicate dataHeaderSize 0
  let buf := Bytes.copySlice buf 0 4 (Bytes.le 4 h.magic.toNat)
  let buf := Bytes.copySlice buf 4 6 (Bytes.le 2 h.version.toNat)
  let buf := Bytes.copySlice buf 6 8 (Bytes.le 2 h.flags.toNat)
  let buf := Bytes.copySlice buf 8 16 (Bytes.le 8 h.sessionId.toNat)
  let buf := Bytes.copySlice buf 16 20 (Bytes.le 4 h.streamId.toNat)
  let buf := Bytes.copySlice buf 20 28 (Bytes.le 8 h.seq.toNat)
  let buf := Bytes.copySlice buf 28 36 (Bytes.le 8 h.sendMonoNs.toNat)
  Bytes.copySlice buf 36 40 (Bytes.le 4 h.payloadLen.toNat)

/-- `DataHeader::decode` -/
def decode (buf : List UInt8) : Except IpfuschError DataHeader :=
  if buf.length ≠ dataHeaderSize then .error .invalidPacketHeader
  else
    let magic := UInt32.ofNat (Bytes.ofLe (Bytes.slice buf 0 4))
    let version := UInt16.ofNat (Bytes.ofLe (Bytes.slice buf 4 6))
    if magic ≠ dataMagic then .error .invalidPacketHeader
    else if version ≠ protocolVersion then
      .error (.protocolVersionMismatch protocolVersion version)
    else .ok {
      magic := magic
      version := version
      flags := UInt16.ofNat (Bytes.ofLe (Bytes.slice buf 6 8))
      sessionId := UInt64.ofNat (Bytes.ofLe (Bytes.slice buf 8 16))
      streamId := UInt32.ofNat (Bytes.ofLe (Bytes.slice buf 16 20))
      seq := UInt64.ofNat (Bytes.ofLe (Bytes.slice buf 20 28))
      sendMonoNs := UInt64.ofNat (Bytes.ofLe (Bytes.slice buf 28 36))
      payloadLen := UInt32.ofNat (Bytes.ofLe (Bytes.slice buf 36 40)) }

/-- A header is its fields in order. -/
def fieldsEquiv : (UInt32 × UInt16 × UInt16 × UInt64 × UInt32 × UInt64 × UInt64 × UInt32) ≃
    DataHeader where
  toFun p := ⟨p.1, p.2.1, p.2.2.1, p.2.2.2.1, p.2.2.2.2.1, p.2.2.2.2.2.1, p.2.2.2.2.2.2.1,
    p.2.2.2.2.2.2.2⟩
  invFun h := (h.magic, h.version, h.flags, h.sessionId, h.streamId, h.seq, h.sendMonoNs,
    h.payloadLen)
  left_inv _ := rfl
  right_inv _ := rfl

/-- The layout of a header : its fields in order, little-endian. -/
def wire : PrefixCodec DataHeader :=
  (PrefixCodec.u32.pair <| PrefixCodec.u16.pair <| PrefixCodec.u16.pair <|
    PrefixCodec.u64.pair <| PrefixCodec.u32.pair <| PrefixCodec.u64.pair <|
    PrefixCodec.u64.pair PrefixCodec.u32).map fieldsEquiv

theorem wire_fits (h : DataHeader) : wire.Fits h := by
  simp [wire]

/-- The hand-written offsets lay the fields out in order. -/
theorem encode_eq_wire (h : DataHeader) : h.encode = wire.encode h := by
  have h0 : List.replicate dataHeaderSize (0 : UInt8) = [] ++ List.replicate 40 0 := rfl
  unfold encode
  rw [h0]
  simp (disch := simp) only [Bytes.copySlice_append_replicate]
  simp [wire, PrefixCodec.encode_map, PrefixCodec.encode_pair, PrefixCodec.encode_u16,
    PrefixCodec.encode_u32, PrefixCodec.encode_u64, fieldsEquiv]

@[simp] theorem length_encode (h : DataHeader) : h.encode.length = dataHeaderSize := by
  rw [encode_eq_wire]
  simp [wire, dataHeaderSize]

theorem encode_append_eq (h : DataHeader) (rest : List UInt8) :
    wire.decode (h.encode ++ rest) = some (h, rest) := by
  rw [encode_eq_wire]
  exact wire.decode_encode (wire_fits h) rest

/-- Forty bytes are the layout of the header whose fields are their slices. -/
theorem wire_decode {buf : List UInt8} (hlen : buf.length = dataHeaderSize) :
    wire.decode buf = some ({
      magic := UInt32.ofNat (Bytes.ofLe (Bytes.slice buf 0 4))
      version := UInt16.ofNat (Bytes.ofLe (Bytes.slice buf 4 6))
      flags := UInt16.ofNat (Bytes.ofLe (Bytes.slice buf 6 8))
      sessionId := UInt64.ofNat (Bytes.ofLe (Bytes.slice buf 8 16))
      streamId := UInt32.ofNat (Bytes.ofLe (Bytes.slice buf 16 20))
      seq := UInt64.ofNat (Bytes.ofLe (Bytes.slice buf 20 28))
      sendMonoNs := UInt64.ofNat (Bytes.ofLe (Bytes.slice buf 28 36))
      payloadLen := UInt32.ofNat (Bytes.ofLe (Bytes.slice buf 36 40)) }, []) := by
  have hbuf : buf.length = 40 := hlen
  nth_rewrite 1 [← List.drop_zero (l := buf)]
  simp (disch := omega) only [wire, PrefixCodec.decode_map, PrefixCodec.decode_pair,
    PrefixCodec.decode_u16_drop, PrefixCodec.decode_u32_drop, PrefixCodec.decode_u64_drop,
    Option.bind_some, Option.map_some, Nat.reduceAdd]
  rw [List.drop_of_length_le hbuf.le]
  rfl

/-- `decode` accepts exactly the encodings of headers with the magic and the version. -/
theorem decode_eq_ok_iff {buf : List UInt8} {h : DataHeader} : decode buf = .ok h ↔
    buf = h.encode ∧ h.magic = dataMagic ∧ h.version = protocolVersion := by
  constructor
  · intro hd
    unfold decode at hd
    dsimp only at hd
    split_ifs at hd with hlen hmagic hversion
    have hw := wire.sound (wire_decode (not_not.mp hlen))
    rw [Except.ok.inj hd, ← encode_eq_wire, List.append_nil] at hw
    obtain rfl := Except.ok.inj hd
    exact ⟨hw.2, not_not.mp hmagic, not_not.mp hversion⟩
  · rintro ⟨hbuf, hmagic, hversion⟩
    have hlen : buf.length = dataHeaderSize := hbuf ▸ length_encode h
    have hw := wire_decode hlen
    have he := encode_append_eq h []
    rw [← hbuf] at he
    rw [List.append_nil, hw, Option.some.injEq, Prod.mk.injEq] at he
    have hm := congrArg DataHeader.magic he.1
    have hv := congrArg DataHeader.version he.1
    dsimp only at hm hv
    unfold decode
    rw [if_neg (not_not.mpr hlen)]
    dsimp only
    rw [if_neg (by rw [hm, hmagic]; simp), if_neg (by rw [hv, hversion]; simp), he.1]

theorem decode_encode {h : DataHeader} (hm : h.magic = dataMagic)
    (hv : h.version = protocolVersion) : decode h.encode = .ok h :=
  decode_eq_ok_iff.mpr ⟨rfl, hm, hv⟩

/-- What `new` makes is decoded. -/
@[simp] theorem decode_encode_new (sessionId : UInt64) (streamId : UInt32)
    (seq sendMonoNs : UInt64) (payloadLen : UInt32) :
    decode (new sessionId streamId seq sendMonoNs payloadLen).encode =
      .ok (new sessionId streamId seq sendMonoNs payloadLen) :=
  decode_encode rfl rfl

theorem length_of_decode {buf : List UInt8} {h : DataHeader} (hd : decode buf = .ok h) :
    buf.length = dataHeaderSize := by
  rw [(decode_eq_ok_iff.mp hd).1, length_encode]

/-- The first bytes of a header are the magic number. -/
theorem take_encode (h : DataHeader) : h.encode.take 4 = Bytes.le 4 h.magic.toNat := by
  rw [encode_eq_wire]
  simp [wire, PrefixCodec.encode_map, PrefixCodec.encode_pair, PrefixCodec.encode_u32, fieldsEquiv]

theorem wire_encode_ne_nil (h : DataHeader) : wire.encode h ≠ [] := by
  intro hnil
  have hlen := length_encode h
  rw [encode_eq_wire, hnil] at hlen
  cases hlen

/-- Less than a header is no header. -/
theorem decode_take_of_short {bs : List UInt8} (h : bs.length < dataHeaderSize) :
    decode (bs.take dataHeaderSize) = .error .invalidPacketHeader := by
  unfold decode
  rw [if_pos (by rw [List.length_take]; omega)]

end DataHeader

/-! ## Control messages -/

/-- `[u8; 32]` -/
abbrev Digest := List.Vector UInt8 32

/-- The messages of the handshake. -/
inductive ControlMessage
  | hello (version : UInt16) (clientName : String) (tokenHash : Option Digest)
      (capabilities : List String)
  | startSession (sessionId : UInt64) (transport : String) (streams : UInt16)
      (durationMs payloadBytes intervalMs : UInt64) (rateBps : Option UInt64)
  | ack (sessionId : UInt64) (accepted : Bool) (reason : Option String)
  | stopSession (sessionId : UInt64)
  deriving DecidableEq

namespace ControlMessage

/-- The fields of each variant, in order. -/
def Fields : Fin 4 → Type
  | 0 => UInt16 × String × Option Digest × List String
  | 1 => UInt64 × String × UInt16 × UInt64 × UInt64 × UInt64 × Option UInt64
  | 2 => UInt64 × Bool × Option String
  | 3 => UInt64

/-- A message is a variant and its fields. -/
def fieldsEquiv : (Σ i, Fields i) ≃ ControlMessage where
  toFun
    | ⟨0, (v, n, t, c)⟩ => hello v n t c
    | ⟨1, (s, t, n, d, p, i, r)⟩ => startSession s t n d p i r
    | ⟨2, (s, a, r)⟩ => ack s a r
    | ⟨3, s⟩ => stopSession s
  invFun
    | hello v n t c => ⟨0, (v, n, t, c)⟩
    | startSession s t n d p i r => ⟨1, (s, t, n, d, p, i, r)⟩
    | ack s a r => ⟨2, (s, a, r)⟩
    | stopSession s => ⟨3, s⟩
  left_inv
    | ⟨0, _⟩ => rfl
    | ⟨1, _⟩ => rfl
    | ⟨2, _⟩ => rfl
    | ⟨3, _⟩ => rfl
  right_inv
    | hello _ _ _ _ => rfl
    | startSession _ _ _ _ _ _ _ => rfl
    | ack _ _ _ => rfl
    | stopSession _ => rfl

/-- The fields of a variant, one after the other. -/
def fieldsCodec : ∀ i, PrefixCodec (Fields i)
  | 0 => PrefixCodec.u16.pair <| PrefixCodec.string.pair <|
      (PrefixCodec.bytes 32).option.pair PrefixCodec.string.list
  | 1 => PrefixCodec.u64.pair <| PrefixCodec.string.pair <| PrefixCodec.u16.pair <|
      PrefixCodec.u64.pair <| PrefixCodec.u64.pair <| PrefixCodec.u64.pair PrefixCodec.u64.option
  | 2 => PrefixCodec.u64.pair <| PrefixCodec.bool.pair PrefixCodec.string.option
  | 3 => PrefixCodec.u64

/-- The `bincode` encoding of a message. -/
def bincode : PrefixCodec ControlMessage :=
  (PrefixCodec.tagged (by decide) fieldsCodec).map fieldsEquiv

/-- `bincode::serialize` -/
def serialize (m : ControlMessage) : List UInt8 :=
  bincode.encode m

/-- `bincode::deserialize` : the message at the front of the bytes. -/
def deserialize (bs : List UInt8) : Option ControlMessage :=
  (bincode.decode bs).map Prod.fst

theorem deserialize_serialize {m : ControlMessage} (h : bincode.Fits m) :
    deserialize m.serialize = some m := by
  rw [deserialize, serialize, bincode.decode_encode_nil h, Option.map_some]

theorem lengthBounded_fieldsCodec : ∀ i, (fieldsCodec i).LengthBounded
  | 0 => PrefixCodec.lengthBounded_u16.pair <| PrefixCodec.lengthBounded_string.pair <|
      (PrefixCodec.lengthBounded_bytes 32).option.pair <|
        PrefixCodec.lengthBounded_string.list fun s h => by
          have hlen := congrArg List.length h
          rw [PrefixCodec.length_encode_string, List.length_nil] at hlen
          omega
  | 1 => PrefixCodec.lengthBounded_u64.pair <| PrefixCodec.lengthBounded_string.pair <|
      PrefixCodec.lengthBounded_u16.pair <| PrefixCodec.lengthBounded_u64.pair <|
        PrefixCodec.lengthBounded_u64.pair <| PrefixCodec.lengthBounded_u64.pair
          PrefixCodec.lengthBounded_u64.option
  | 2 => PrefixCodec.lengthBounded_u64.pair <| PrefixCodec.lengthBounded_bool.pair
      PrefixCodec.lengthBounded_string.option
  | 3 => PrefixCodec.lengthBounded_u64

/-- A message fits if the length of its encoding does. -/
theorem fits_of_length {m : ControlMessage} (h : m.serialize.length < 2 ^ 64) : bincode.Fits m :=
  (PrefixCodec.LengthBounded.tagged lengthBounded_fieldsCodec).map fieldsEquiv m h

end ControlMessage

/-! ## Tokens -/

section Token

variable (sha256 : List UInt8 → Digest)

/-- `hash_token` -/
def hashToken (token : String) : Digest :=
  sha256 (utf8 token)

/-- `token_matches` : the hashes are compared byte by byte, without an early exit. -/
def tokenMatches (expectedToken : Option String) (gotHash : Option Digest) : Bool :=
  match expectedToken, gotHash with
  | none, _ => true
  | some _, none => false
  | some expectedToken, some gotHash =>
    let expectedHash := hashToken sha256 expectedToken
    let diff := (expectedHash.toList.zip gotHash.toList).foldl
      (fun diff p => diff ||| (p.1 ^^^ p.2)) (0 : UInt8)
    diff == 0

theorem or_eq_zero {a b : UInt8} : a ||| b = 0 ↔ a = 0 ∧ b = 0 := by
  constructor
  · intro h
    have h' := congrArg UInt8.toNat h
    simp only [UInt8.toNat_or, UInt8.toNat_zero, Nat.or_eq_zero_iff] at h'
    exact ⟨UInt8.toNat_inj.mp h'.1, UInt8.toNat_inj.mp h'.2⟩
  · rintro ⟨rfl, rfl⟩
    rfl

theorem foldl_diff_eq_zero : ∀ (l : List (UInt8 × UInt8)) (d : UInt8),
    l.foldl (fun diff p => diff ||| (p.1 ^^^ p.2)) d = 0 ↔ d = 0 ∧ ∀ p ∈ l, p.1 = p.2
  | [], d => by simp
  | p :: l, d => by
    rw [List.foldl_cons, foldl_diff_eq_zero l, or_eq_zero, UInt8.xor_eq_zero_iff,
      List.forall_mem_cons, and_assoc]

theorem zip_all_eq : ∀ {l l' : List UInt8}, l.length = l'.length →
    ((∀ p ∈ l.zip l', p.1 = p.2) ↔ l = l')
  | [], [], _ => by simp
  | a :: l, b :: l', h => by
    rw [List.zip_cons_cons, List.forall_mem_cons, zip_all_eq (by simpa using h), List.cons.injEq]

/-- The comparison of hashes accepts exactly equal hashes. -/
theorem tokenMatches_some {token : String} {gotHash : Option Digest} :
    tokenMatches sha256 (some token) gotHash = true ↔ gotHash = some (hashToken sha256 token) := by
  cases gotHash with
  | none => simp [tokenMatches]
  | some d =>
    have hlen : (hashToken sha256 token).toList.length = d.toList.length := by simp
    rw [tokenMatches, beq_iff_eq, foldl_diff_eq_zero, zip_all_eq hlen]
    simp only [true_and, Option.some.injEq]
    exact ⟨fun h => (List.Vector.toList_injective h).symm, fun h => by rw [h]⟩

@[simp] theorem tokenMatches_none (gotHash : Option Digest) :
    tokenMatches sha256 none gotHash = true := by
  cases gotHash <;> rfl

/-- A client that sends the hash of its own token is accepted exactly if the server has
no token or one with the same hash. -/
theorem tokenMatches_map_hashToken (server client : Option String) :
    tokenMatches sha256 server (client.map (hashToken sha256)) = true ↔
      server = none ∨ client.map (hashToken sha256) = server.map (hashToken sha256) := by
  cases server with
  | none => simp
  | some t => simp [tokenMatches_some]

end Token

end Ipfusch
