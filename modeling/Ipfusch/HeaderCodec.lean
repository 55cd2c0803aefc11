import Ipfusch.Protocol

/-!
# The header codec as a bijection

A header is valid if it has the magic and the version, and forty bytes are if they start with
them. `headerEquiv` : `encode` and `decode` are inverse to each other between the two.

`decodeChecked` is `decode` with the panics of its slices and conversions. There are none
(`decodeChecked_eq`). `headerCodec` puts the two together and says which error `decode` returns
for any other bytes.
-/

namespace Ipfusch

namespace DataHeader

/-! ## Slices that may panic -/

/-- `buf[lo..hi].try_into().expect(..)` : the slice panics if it is out of range and the
conversion if the slice does not have the length of the array. -/
def sliceChecked (buf : List UInt8) (lo hi width : ℕ) : Option (List UInt8) :=
  if lo ≤ hi ∧ hi ≤ buf.length then
    if (Bytes.slice buf lo hi).length = width then some (Bytes.slice buf lo hi) else none
  else none

theorem sliceChecked_eq {buf : List UInt8} {lo hi width : ℕ} (hlo : lo ≤ hi)
    (hhi : hi ≤ buf.length) (hwidth : hi - lo = width) :
    sliceChecked buf lo hi width = some (Bytes.slice buf lo hi) := by
  unfold sliceChecked
  rw [if_pos ⟨hlo, hhi⟩, if_pos (by rw [Bytes.length_slice hhi, hwidth])]

/-- `DataHeader::decode`, or `none` if it panics. -/
def decodeChecked (buf : List UInt8) : Option (Except IpfuschError DataHeader) :=
  if buf.length ≠ dataHeaderSize then some (.error .invalidPacketHeader)
  else
    (sliceChecked buf 0 4 4).bind fun magic =>
    (sliceChecked buf 4 6 2).bind fun version =>
    if UInt32.ofNat (Bytes.ofLe magic) ≠ dataMagic then some (.error .invalidPacketHeader)
    else if UInt16.ofNat (Bytes.ofLe version) ≠ protocolVersion then
      some (.error (.protocolVersionMismatch protocolVersion (UInt16.ofNat (Bytes.ofLe version))))
    else
      (sliceChecked buf 6 8 2).bind fun flags =>
      (sliceChecked buf 8 16 8).bind fun sessionId =>
      (sliceChecked buf 16 20 4).bind fun streamId =>
      (sliceChecked buf 20 28 8).bind fun seq =>
      (sliceChecked buf 28 36 8).bind fun sendMonoNs =>
      (sliceChecked buf 36 40 4).bind fun payloadLen =>
      some (.ok {
        magic := UInt32.ofNat (Bytes.ofLe magic)
        version := UInt16.ofNat (Bytes.ofLe version)
        flags := UInt16.ofNat (Bytes.ofLe flags)
        sessionId := UInt64.ofNat (Bytes.ofLe sessionId)
        streamId := UInt32.ofNat (Bytes.ofLe streamId)
        seq := UInt64.ofNat (Bytes.ofLe seq)
        sendMonoNs := UInt64.ofNat (Bytes.ofLe sendMonoNs)
        payloadLen := UInt32.ofNat (Bytes.ofLe payloadLen) })

/-- No slice of `decode` panics. -/
theorem decodeChecked_eq (buf : List UInt8) : decodeChecked buf = some (decode buf) := by
  unfold decodeChecked decode
  by_cases hlen : buf.length = dataHeaderSize
  · have hbuf : buf.length = 40 := hlen
    rw [if_neg (not_not.mpr hlen), if_neg (not_not.mpr hlen)]
    simp (disch := omega) only [sliceChecked_eq, Option.bind_some]
    split_ifs <;> rfl
  · rw [if_pos hlen, if_pos hlen]

/-! ## Valid headers and bytes -/

/-- A header with the magic and the version. -/
@[ext] structure Valid where
  header : DataHeader
  magic : header.magic = dataMagic
  version : header.version = protocolVersion

/-- The bytes start with the magic. -/
def HasMagic (buf : List UInt8) : Prop :=
  buf.length = dataHeaderSize ∧ Bytes.slice buf 0 4 = Bytes.le 4 dataMagic.toNat

/-- The version follows the magic. -/
def WellFormed (buf : List UInt8) : Prop :=
  HasMagic buf ∧ Bytes.slice buf 4 6 = Bytes.le 2 protocolVersion.toNat

/-- The version in some bytes. -/
def versionOf (buf : List UInt8) : UInt16 :=
  UInt16.ofNat (Bytes.ofLe (Bytes.slice buf 4 6))

theorem magic_eq_iff {buf : List UInt8} (hlen : buf.length = dataHeaderSize) :
    UInt32.ofNat (Bytes.ofLe (Bytes.slice buf 0 4)) = dataMagic ↔
      Bytes.slice buf 0 4 = Bytes.le 4 dataMagic.toNat := by
  have hslice : (Bytes.slice buf 0 4).length = 4 :=
    Bytes.length_slice (by rw [hlen, dataHeaderSize]; omega)
  have hlt := Bytes.ofLe_lt (Bytes.slice buf 0 4)
  rw [hslice] at hlt
  constructor
  · intro h
    rw [← h, UInt32.toNat_ofNat_of_lt' hlt, Bytes.le_ofLe_of_length hslice]
  · intro h
    rw [h]
    decide

theorem versionOf_eq_iff {buf : List UInt8} (hlen : buf.length = dataHeaderSize) :
    versionOf buf = protocolVersion ↔
      Bytes.slice buf 4 6 = Bytes.le 2 protocolVersion.toNat := by
  have hslice : (Bytes.slice buf 4 6).length = 2 :=
    Bytes.length_slice (by rw [hlen, dataHeaderSize]; omega)
  have hlt := Bytes.ofLe_lt (Bytes.slice buf 4 6)
  rw [hslice] at hlt
  unfold versionOf
  constructor
  · intro h
    rw [← h, UInt16.toNat_ofNat_of_lt' hlt, Bytes.le_ofLe_of_length hslice]
  · intro h
    rw [h]
    decide

/-- What `decode` returns, from the two conditions. -/
theorem decode_cases (buf : List UInt8) :
    (WellFormed buf ∧ ∃ h, decode buf = .ok h) ∨
      (HasMagic buf ∧ ¬WellFormed buf ∧
        decode buf = .error (.protocolVersionMismatch protocolVersion (versionOf buf))) ∨
      (¬HasMagic buf ∧ decode buf = .error .invalidPacketHeader) := by
  unfold decode
  dsimp only
  split_ifs with hlen hmagic hversion
  · exact .inr (.inr ⟨fun h => hlen h.1, rfl⟩)
  · exact .inr (.inr ⟨fun h => hmagic ((magic_eq_iff h.1).mpr h.2), rfl⟩)
  · have hmagic' : HasMagic buf := ⟨not_not.mp hlen, (magic_eq_iff (not_not.mp hlen)).mp
      (not_not.mp hmagic)⟩
    exact .inr (.inl ⟨hmagic', fun h => hversion ((versionOf_eq_iff hmagic'.1).mpr h.2), rfl⟩)
  · have hmagic' : HasMagic buf := ⟨not_not.mp hlen, (magic_eq_iff (not_not.mp hlen)).mp
      (not_not.mp hmagic)⟩
    exact .inl ⟨⟨hmagic', (versionOf_eq_iff hmagic'.1).mp (not_not.mp hversion)⟩, _, rfl⟩

theorem decode_ok_iff_wellFormed {buf : List UInt8} :
    (∃ h, decode buf = .ok h) ↔ WellFormed buf := by
  rcases decode_cases buf with ⟨hw, hok⟩ | ⟨-, hw, herr⟩ | ⟨hm, herr⟩
  · exact ⟨fun _ => hw, fun _ => hok⟩
  · simp [hw, herr]
  · have hw : ¬WellFormed buf := fun h => hm h.1
    simp [hw, herr]

theorem wellFormed_encode (h : Valid) : WellFormed h.header.encode :=
  decode_ok_iff_wellFormed.mp ⟨h.header, decode_encode h.magic h.version⟩

/-- The header of well-formed bytes. -/
def ofBytes (buf : {buf : List UInt8 // WellFormed buf}) : Valid :=
  match hd : decode buf.1 with
  | .ok h => ⟨h, (decode_eq_ok_iff.mp hd).2.1, (decode_eq_ok_iff.mp hd).2.2⟩
  | .error e => absurd (decode_ok_iff_wellFormed.mpr buf.2) (by simp [hd])

theorem decode_ofBytes (buf : {buf : List UInt8 // WellFormed buf}) :
    decode buf.1 = .ok (ofBytes buf).header := by
  unfold ofBytes
  split
  · assumption
  · rename_i e hd
    exact absurd (decode_ok_iff_wellFormed.mpr buf.2) (by simp [hd])

/-- `encode` and `decode` are inverse to each other. -/
def headerEquiv : Valid ≃ {buf : List UInt8 // WellFormed buf} where
  toFun h := ⟨h.header.encode, wellFormed_encode h⟩
  invFun := ofBytes
  left_inv h := by
    have hd := decode_ofBytes ⟨h.header.encode, wellFormed_encode h⟩
    rw [decode_encode h.magic h.version] at hd
    exact Valid.ext (Except.ok.inj hd).symm
  right_inv buf := Subtype.ext (decode_eq_ok_iff.mp (decode_ofBytes buf)).1.symm

/-- `decode` takes back what `encode` makes of a valid header, and accepts no other bytes than
those that start with the magic and the version, from which it makes the header that they
encode. If the magic is right it returns the version it found, otherwise that the header is
invalid. It does not panic. -/
theorem headerCodec :
    (∀ h : Valid, decode h.header.encode = .ok h.header) ∧
      ∀ buf : List UInt8,
        ((∃ h, decode buf = .ok h) ↔ WellFormed buf) ∧
        (∀ h, decode buf = .ok h → h.encode = buf) ∧
        (∀ expected got, decode buf = .error (.protocolVersionMismatch expected got) ↔
          (HasMagic buf ∧ ¬WellFormed buf) ∧ expected = protocolVersion ∧ got = versionOf buf) ∧
        (decode buf = .error .invalidPacketHeader ↔ ¬HasMagic buf) ∧
        decodeChecked buf = some (decode buf) := by
  refine ⟨fun h => decode_encode h.magic h.version, fun buf => ⟨decode_ok_iff_wellFormed,
    fun h hd => (decode_eq_ok_iff.mp hd).1.symm, ?_, ?_, decodeChecked_eq buf⟩⟩
  · intro expected got
    rcases decode_cases buf with ⟨hw, h, hok⟩ | ⟨hm, hw, herr⟩ | ⟨hm, herr⟩
    · simp [hok, hw]
    · simp only [herr, hm, hw, Except.error.injEq, IpfuschError.protocolVersionMismatch.injEq,
        not_false_eq_true, true_and, eq_comm]
    · simp [herr, hm]
  · rcases decode_cases buf with ⟨hw, h, hok⟩ | ⟨hm, hw, herr⟩ | ⟨hm, herr⟩
    · simp [hok, hw.1]
    · simp [herr, hm]
    · simp [herr, hm]

end DataHeader

end Ipfusch
