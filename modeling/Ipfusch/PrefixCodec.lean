import Ipfusch.Bytes
import Mathlib.Algebra.Order.BigOperators.Group.List
import Mathlib.Data.Vector.Basic

/-!
# Prefix codecs

A `PrefixCodec` writes a value as bytes and reads one back from the front of a byte
string. It carries its two laws : what is written is read back with what follows
untouched (`decode_encode`), and what is read was written (`sound`). `Fits` is the
condition on a value that its length fields do not overflow.

From the laws alone : a value is read alike whatever follows (`decode_append`), and no
proper prefix of an encoding is read (`decode_eq_none_of_prefix`). `decodeAll` reads values
as long as there are any, and what it reads is the only list of values that is there
(`decodeAll_eq_iff`).

The constructions are those of a self-delimiting binary format : integers of a fixed
width, flags of one byte, length-prefixed strings and lists, pairs, options, and
tagged unions. For all of these a value fits if the length of its encoding does
(`LengthBounded`).
-/

/-- An encoding that can be read back from the front of a byte string. -/
structure PrefixCodec (α : Type*) where
  /-- The bytes of a value. -/
  encode : α → List UInt8
  /-- The value at the front of some bytes, and the bytes after it. -/
  decode : List UInt8 → Option (α × List UInt8)
  /-- The length fields of the value do not overflow. -/
  Fits : α → Prop
  decode_encode : ∀ {a}, Fits a → ∀ rest, decode (encode a ++ rest) = some (a, rest)
  sound : ∀ {bs a rest}, decode bs = some (a, rest) → Fits a ∧ bs = encode a ++ rest

namespace PrefixCodec

variable {α β : Type*}

/-! ## What follows from the laws -/

theorem decode_encode_nil (c : PrefixCodec α) {a : α} (h : c.Fits a) :
    c.decode (c.encode a) = some (a, []) := by
  simpa using c.decode_encode h []

/-- Bytes after a value do not change how it is read. -/
theorem decode_append (c : PrefixCodec α) {bs rest : List UInt8} {a : α}
    (h : c.decode bs = some (a, rest)) (t : List UInt8) :
    c.decode (bs ++ t) = some (a, rest ++ t) := by
  obtain ⟨hfit, rfl⟩ := c.sound h
  rw [List.append_assoc]
  exact c.decode_encode hfit _

/-- No proper prefix of an encoding is read. -/
theorem decode_eq_none_of_prefix (c : PrefixCodec α) {a : α} (ha : c.Fits a)
    {bs t : List UInt8} (h : c.encode a = bs ++ t) (ht : t ≠ []) : c.decode bs = none := by
  by_contra hne
  obtain ⟨⟨b, rest⟩, hb⟩ := Option.ne_none_iff_exists'.mp hne
  have hdec := c.decode_append hb t
  rw [← h, c.decode_encode_nil ha] at hdec
  simp only [Option.some.injEq, Prod.mk.injEq] at hdec
  exact ht (List.append_eq_nil_iff.mp hdec.2.symm).2

/-! ## Constructions -/

/-- A number type read and written as `w` little-endian bytes. -/
def uint (w : ℕ) (toNat : α → ℕ) (ofNat : ℕ → α) (hlt : ∀ a, toNat a < 256 ^ w)
    (hof : ∀ a, ofNat (toNat a) = a) (hto : ∀ n < 256 ^ w, toNat (ofNat n) = n) :
    PrefixCodec α where
  encode a := Bytes.le w (toNat a)
  decode bs := (Bytes.takeExact w bs).map fun r => (ofNat (Bytes.ofLe r.1), r.2)
  Fits _ := True
  decode_encode := by
    intro a _ rest
    rw [Bytes.takeExact_append (Bytes.length_le w _), Option.map_some,
      Bytes.ofLe_le_of_lt (hlt a), hof]
  sound := by
    intro bs a rest h
    obtain ⟨⟨x, r⟩, hx, hr⟩ := Option.map_eq_some_iff.mp h
    simp only [Prod.mk.injEq] at hr
    obtain ⟨rfl, rfl⟩ := hr
    obtain ⟨hlen, rfl⟩ := Bytes.takeExact_eq_some.mp hx
    refine ⟨trivial, ?_⟩
    have hx : Bytes.ofLe x < 256 ^ w := hlen ▸ Bytes.ofLe_lt x
    rw [hto _ hx, Bytes.le_ofLe_of_length hlen]

def u16 : PrefixCodec UInt16 :=
  uint 2 UInt16.toNat UInt16.ofNat (fun a => a.toNat_lt) (fun _ => UInt16.ofNat_toNat)
    fun _ h => UInt16.toNat_ofNat_of_lt h

def u32 : PrefixCodec UInt32 :=
  uint 4 UInt32.toNat UInt32.ofNat (fun a => a.toNat_lt) (fun _ => UInt32.ofNat_toNat)
    fun _ h => UInt32.toNat_ofNat_of_lt h

def u64 : PrefixCodec UInt64 :=
  uint 8 UInt64.toNat UInt64.ofNat (fun a => a.toNat_lt) (fun _ => UInt64.ofNat_toNat)
    fun _ h => UInt64.toNat_ofNat_of_lt h

/-- One byte, `0` or `1`. -/
def bool : PrefixCodec Bool where
  encode b := [if b then 1 else 0]
  decode
    | 0 :: rest => some (false, rest)
    | 1 :: rest => some (true, rest)
    | _ => none
  Fits _ := True
  decode_encode := by
    rintro (_ | _) - rest <;> rfl
  sound := by
    intro bs a rest h
    split at h
    · simp only [Option.some.injEq, Prod.mk.injEq] at h
      obtain ⟨rfl, rfl⟩ := h
      exact ⟨trivial, rfl⟩
    · simp only [Option.some.injEq, Prod.mk.injEq] at h
      obtain ⟨rfl, rfl⟩ := h
      exact ⟨trivial, rfl⟩
    · simp at h

/-- Exactly `n` bytes. -/
def bytes (n : ℕ) : PrefixCodec (List.Vector UInt8 n) where
  encode v := v.toList
  decode bs := if h : n ≤ bs.length then
      some (⟨bs.take n, by simp [h]⟩, bs.drop n) else none
  Fits _ := True
  decode_encode := by
    rintro ⟨l, hl⟩ - rest
    subst hl
    simp [List.Vector.toList]
  sound := by
    intro bs a rest h
    split_ifs at h with hn
    obtain ⟨rfl, rfl⟩ := Prod.mk.inj (Option.some.inj h)
    exact ⟨trivial, (List.take_append_drop n bs).symm⟩

/-- Read and write through a bijection. -/
def map (c : PrefixCodec α) (e : α ≃ β) : PrefixCodec β where
  encode b := c.encode (e.symm b)
  decode bs := (c.decode bs).map fun r => (e r.1, r.2)
  Fits b := c.Fits (e.symm b)
  decode_encode := by
    intro b hb rest
    simp [c.decode_encode hb rest]
  sound := by
    intro bs b rest h
    obtain ⟨⟨a, r⟩, ha, hr⟩ := Option.map_eq_some_iff.mp h
    simp only [Prod.mk.injEq] at hr
    obtain ⟨rfl, rfl⟩ := hr
    simpa using c.sound ha

/-- Two values, one after the other. -/
def pair (c : PrefixCodec α) (d : PrefixCodec β) : PrefixCodec (α × β) where
  encode p := c.encode p.1 ++ d.encode p.2
  decode bs := (c.decode bs).bind fun r => (d.decode r.2).map fun q => ((r.1, q.1), q.2)
  Fits p := c.Fits p.1 ∧ d.Fits p.2
  decode_encode := by
    rintro ⟨a, b⟩ ⟨ha, hb⟩ rest
    simp [c.decode_encode ha, d.decode_encode hb]
  sound := by
    intro bs p rest h
    obtain ⟨⟨a, r⟩, ha, h⟩ := Option.bind_eq_some_iff.mp h
    obtain ⟨⟨b, r'⟩, hb, h⟩ := Option.map_eq_some_iff.mp h
    simp only [Prod.mk.injEq] at h
    obtain ⟨rfl, rfl⟩ := h
    obtain ⟨hfa, rfl⟩ := c.sound ha
    obtain ⟨hfb, hr⟩ := d.sound hb
    exact ⟨⟨hfa, hfb⟩, by rw [List.append_assoc]; exact congrArg _ hr⟩

theorem encode_u16 (a : UInt16) : u16.encode a = Bytes.le 2 a.toNat := rfl

theorem encode_u32 (a : UInt32) : u32.encode a = Bytes.le 4 a.toNat := rfl

theorem encode_u64 (a : UInt64) : u64.encode a = Bytes.le 8 a.toNat := rfl

theorem encode_map (c : PrefixCodec α) (e : α ≃ β) (b : β) :
    (c.map e).encode b = c.encode (e.symm b) := rfl

theorem encode_pair (c : PrefixCodec α) (d : PrefixCodec β) (p : α × β) :
    (c.pair d).encode p = c.encode p.1 ++ d.encode p.2 := rfl

/-- A number is read from a slice of a buffer. -/
theorem decode_uint_drop {w : ℕ} {toNat : α → ℕ} {ofNat : ℕ → α} {hlt : ∀ a, toNat a < 256 ^ w}
    {hof : ∀ a, ofNat (toNat a) = a} {hto : ∀ n < 256 ^ w, toNat (ofNat n) = n}
    {buf : List UInt8} {lo : ℕ} (h : lo + w ≤ buf.length) :
    (uint w toNat ofNat hlt hof hto).decode (buf.drop lo) =
      some (ofNat (Bytes.ofLe (Bytes.slice buf lo (lo + w))), buf.drop (lo + w)) := by
  have hw : w ≤ (buf.drop lo).length := by
    rw [List.length_drop]
    omega
  simp only [uint, Bytes.takeExact, if_pos hw, Option.map_some, Bytes.slice, List.drop_take,
    List.drop_drop, Nat.add_sub_cancel_left]

theorem decode_u16_drop {buf : List UInt8} {lo : ℕ} (h : lo + 2 ≤ buf.length) :
    u16.decode (buf.drop lo) =
      some (UInt16.ofNat (Bytes.ofLe (Bytes.slice buf lo (lo + 2))), buf.drop (lo + 2)) := by
  rw [u16, decode_uint_drop h]

theorem decode_u32_drop {buf : List UInt8} {lo : ℕ} (h : lo + 4 ≤ buf.length) :
    u32.decode (buf.drop lo) =
      some (UInt32.ofNat (Bytes.ofLe (Bytes.slice buf lo (lo + 4))), buf.drop (lo + 4)) := by
  rw [u32, decode_uint_drop h]

theorem decode_u64_drop {buf : List UInt8} {lo : ℕ} (h : lo + 8 ≤ buf.length) :
    u64.decode (buf.drop lo) =
      some (UInt64.ofNat (Bytes.ofLe (Bytes.slice buf lo (lo + 8))), buf.drop (lo + 8)) := by
  rw [u64, decode_uint_drop h]

theorem decode_map (c : PrefixCodec α) (e : α ≃ β) (bs : List UInt8) :
    (c.map e).decode bs = (c.decode bs).map fun r => (e r.1, r.2) := rfl

theorem decode_pair (c : PrefixCodec α) (d : PrefixCodec β) (bs : List UInt8) :
    (c.pair d).decode bs =
      (c.decode bs).bind fun r => (d.decode r.2).map fun q => ((r.1, q.1), q.2) := rfl

/-- A flag byte, `1` if a value follows. -/
def option (c : PrefixCodec α) : PrefixCodec (Option α) where
  encode
    | none => [0]
    | some a => 1 :: c.encode a
  decode
    | 0 :: rest => some (none, rest)
    | 1 :: rest => (c.decode rest).map fun r => (some r.1, r.2)
    | _ => none
  Fits
    | none => True
    | some a => c.Fits a
  decode_encode := by
    rintro (_ | a) ha rest
    · rfl
    · simp only [List.cons_append, c.decode_encode ha, Option.map_some]
  sound := by
    intro bs o rest h
    split at h
    · simp only [Option.some.injEq, Prod.mk.injEq] at h
      obtain ⟨rfl, rfl⟩ := h
      exact ⟨trivial, rfl⟩
    · obtain ⟨⟨a, r⟩, ha, hr⟩ := Option.map_eq_some_iff.mp h
      simp only [Prod.mk.injEq] at hr
      obtain ⟨rfl, rfl⟩ := hr
      obtain ⟨hfit, rfl⟩ := c.sound ha
      exact ⟨hfit, rfl⟩
    · simp at h

/-! ### Lists and strings -/

/-- `n` values from the front of a byte string. -/
def decodeN (c : PrefixCodec α) : ℕ → List UInt8 → Option (List α × List UInt8)
  | 0, bs => some ([], bs)
  | n + 1, bs =>
    (c.decode bs).bind fun r => (decodeN c n r.2).map fun q => (r.1 :: q.1, q.2)

theorem decodeN_encode (c : PrefixCodec α) :
    ∀ (l : List α), (∀ a ∈ l, c.Fits a) → ∀ rest,
      c.decodeN l.length (l.flatMap c.encode ++ rest) = some (l, rest)
  | [], _, _ => rfl
  | a :: l, h, rest => by
    have ih := decodeN_encode c l (fun b hb => h b (List.mem_cons_of_mem a hb)) rest
    simp only [List.length_cons, List.flatMap_cons, List.append_assoc, decodeN,
      c.decode_encode (h a List.mem_cons_self), Option.bind_some, ih, Option.map_some]

theorem decodeN_sound (c : PrefixCodec α) :
    ∀ (n : ℕ) {bs l rest}, c.decodeN n bs = some (l, rest) →
      l.length = n ∧ (∀ a ∈ l, c.Fits a) ∧ bs = l.flatMap c.encode ++ rest
  | 0, bs, l, rest, h => by
    simp only [decodeN, Option.some.injEq, Prod.mk.injEq] at h
    obtain ⟨rfl, rfl⟩ := h
    simp
  | n + 1, bs, l, rest, h => by
    obtain ⟨⟨a, r⟩, ha, h⟩ := Option.bind_eq_some_iff.mp h
    obtain ⟨⟨l', r'⟩, hl, h⟩ := Option.map_eq_some_iff.mp h
    simp only [Prod.mk.injEq] at h
    obtain ⟨rfl, rfl⟩ := h
    obtain ⟨hfa, rfl⟩ := c.sound ha
    obtain ⟨hlen, hfit, hr⟩ := decodeN_sound c n hl
    refine ⟨by simp [hlen], List.forall_mem_cons.mpr ⟨hfa, hfit⟩, ?_⟩
    rw [List.flatMap_cons, List.append_assoc]
    exact congrArg _ hr

/-- A `u64` count and that many values. -/
def list (c : PrefixCodec α) : PrefixCodec (List α) where
  encode l := Bytes.le 8 l.length ++ l.flatMap c.encode
  decode bs := (Bytes.takeExact 8 bs).bind fun r => c.decodeN (Bytes.ofLe r.1) r.2
  Fits l := l.length < 256 ^ 8 ∧ ∀ a ∈ l, c.Fits a
  decode_encode := by
    intro l hl rest
    rw [List.append_assoc, Bytes.takeExact_append (Bytes.length_le 8 _), Option.bind_some,
      Bytes.ofLe_le_of_lt hl.1]
    exact c.decodeN_encode l hl.2 rest
  sound := by
    intro bs l rest h
    obtain ⟨⟨x, r⟩, hx, hl⟩ := Option.bind_eq_some_iff.mp h
    obtain ⟨hx8, rfl⟩ := Bytes.takeExact_eq_some.mp hx
    obtain ⟨hlen, hfit, hr⟩ := c.decodeN_sound _ hl
    have hlt : Bytes.ofLe x < 256 ^ 8 := hx8 ▸ Bytes.ofLe_lt x
    refine ⟨⟨hlen ▸ hlt, hfit⟩, ?_⟩
    rw [hlen, Bytes.le_ofLe_of_length hx8, List.append_assoc]
    exact congrArg _ hr

/-- The UTF-8 bytes of a string. -/
def utf8 (s : String) : List UInt8 :=
  s.toByteArray.data.toList

/-- The string some bytes spell, if they are valid UTF-8. -/
def ofUtf8 (bs : List UInt8) : Option String :=
  String.fromUTF8? ⟨bs.toArray⟩

theorem ofUtf8_utf8 (s : String) : ofUtf8 (utf8 s) = some s := by
  have hv : ByteArray.IsValidUTF8 ⟨(utf8 s).toArray⟩ := by simpa [utf8] using s.isValidUTF8
  rw [ofUtf8, String.fromUTF8?, dif_pos hv]
  simp [String.fromUTF8, utf8]

theorem utf8_of_ofUtf8 {bs : List UInt8} {s : String} (h : ofUtf8 bs = some s) : utf8 s = bs := by
  unfold ofUtf8 String.fromUTF8? at h
  split_ifs at h with hv
  obtain rfl := Option.some.inj h
  simp [utf8, String.fromUTF8]

theorem length_utf8 (s : String) : (utf8 s).length = s.utf8ByteSize := by
  rw [utf8, Array.length_toList]
  rfl

theorem utf8ByteSize_ofList_le : ∀ l : List Char, (String.ofList l).utf8ByteSize ≤ 4 * l.length
  | [] => by simp
  | c :: l => by
    have ih := utf8ByteSize_ofList_le l
    have hc := c.utf8Size_le_four
    rw [← List.singleton_append, String.ofList_append, String.utf8ByteSize_append,
      ← String.singleton_eq_ofList, String.utf8ByteSize_singleton, List.length_append,
      List.length_singleton]
    omega

/-- A character takes at most four bytes. -/
theorem length_utf8_le (s : String) : (utf8 s).length ≤ 4 * s.length := by
  rw [length_utf8, ← String.length_toList]
  simpa using utf8ByteSize_ofList_le s.toList

/-- A `u64` length and that many bytes of UTF-8. -/
def string : PrefixCodec String where
  encode s := Bytes.le 8 (utf8 s).length ++ utf8 s
  decode bs := (Bytes.takeExact 8 bs).bind fun r =>
    (Bytes.takeExact (Bytes.ofLe r.1) r.2).bind fun q => (ofUtf8 q.1).map fun s => (s, q.2)
  Fits s := (utf8 s).length < 256 ^ 8
  decode_encode := by
    intro s hs rest
    rw [List.append_assoc, Bytes.takeExact_append (Bytes.length_le 8 _), Option.bind_some,
      Bytes.ofLe_le_of_lt hs, Bytes.takeExact_append rfl, Option.bind_some, ofUtf8_utf8,
      Option.map_some]
  sound := by
    intro bs s rest h
    obtain ⟨⟨x, r⟩, hx, h⟩ := Option.bind_eq_some_iff.mp h
    obtain ⟨⟨u, r'⟩, hu, h⟩ := Option.bind_eq_some_iff.mp h
    obtain ⟨s', hs, h⟩ := Option.map_eq_some_iff.mp h
    simp only [Prod.mk.injEq] at h
    obtain ⟨rfl, rfl⟩ := h
    obtain ⟨hx8, rfl⟩ := Bytes.takeExact_eq_some.mp hx
    obtain ⟨hulen, rfl⟩ := Bytes.takeExact_eq_some.mp hu
    have hlt : Bytes.ofLe x < 256 ^ 8 := hx8 ▸ Bytes.ofLe_lt x
    rw [utf8_of_ofUtf8 hs, hulen, Bytes.le_ofLe_of_length hx8, List.append_assoc]
    exact ⟨hlt, rfl⟩

/-! ### Tagged unions -/

/-- A `u32` variant index and the fields of that variant. -/
def tagged {n : ℕ} (hn : n ≤ 256 ^ 4) {γ : Fin n → Type*} (c : ∀ i, PrefixCodec (γ i)) :
    PrefixCodec (Σ i, γ i) where
  encode p := Bytes.le 4 p.1 ++ (c p.1).encode p.2
  decode bs := (Bytes.takeExact 4 bs).bind fun r =>
    if h : Bytes.ofLe r.1 < n then
      ((c ⟨Bytes.ofLe r.1, h⟩).decode r.2).map fun q => (⟨_, q.1⟩, q.2)
    else none
  Fits p := (c p.1).Fits p.2
  decode_encode := by
    rintro ⟨i, b⟩ hb rest
    have hi : Bytes.ofLe (Bytes.le 4 i) = i := Bytes.ofLe_le_of_lt (i.isLt.trans_le hn)
    rw [List.append_assoc, Bytes.takeExact_append (Bytes.length_le 4 _), Option.bind_some]
    dsimp only
    generalize Bytes.ofLe (Bytes.le 4 i) = j at hi ⊢
    subst hi
    rw [dif_pos i.isLt, (c i).decode_encode hb, Option.map_some]
  sound := by
    intro bs p rest h
    obtain ⟨⟨x, r⟩, hx, hp⟩ := Option.bind_eq_some_iff.mp h
    obtain ⟨hx4, rfl⟩ := Bytes.takeExact_eq_some.mp hx
    dsimp only at hp
    split_ifs at hp with hlt
    obtain ⟨⟨b, r'⟩, hb, hp⟩ := Option.map_eq_some_iff.mp hp
    simp only [Prod.mk.injEq] at hp
    obtain ⟨rfl, rfl⟩ := hp
    obtain ⟨hfit, rfl⟩ := (c _).sound hb
    exact ⟨hfit, by rw [Bytes.le_ofLe_of_length hx4, List.append_assoc]⟩

/-! ## Which values fit, and how long their encodings are -/

section Length

variable {c : PrefixCodec α} {d : PrefixCodec β}

@[simp] theorem fits_u16 (a : UInt16) : u16.Fits a := trivial

@[simp] theorem fits_u32 (a : UInt32) : u32.Fits a := trivial

@[simp] theorem fits_u64 (a : UInt64) : u64.Fits a := trivial

@[simp] theorem fits_bool (b : Bool) : bool.Fits b := trivial

@[simp] theorem fits_bytes {n : ℕ} (v : List.Vector UInt8 n) : (bytes n).Fits v := trivial

@[simp] theorem fits_map (e : α ≃ β) (b : β) : (c.map e).Fits b ↔ c.Fits (e.symm b) := Iff.rfl

@[simp] theorem fits_pair (p : α × β) : (c.pair d).Fits p ↔ c.Fits p.1 ∧ d.Fits p.2 := Iff.rfl

@[simp] theorem fits_option_none : c.option.Fits none := trivial

@[simp] theorem fits_option_some (a : α) : c.option.Fits (some a) ↔ c.Fits a := Iff.rfl

@[simp] theorem fits_list (l : List α) :
    c.list.Fits l ↔ l.length < 256 ^ 8 ∧ ∀ a ∈ l, c.Fits a := Iff.rfl

@[simp] theorem fits_string (s : String) : string.Fits s ↔ (utf8 s).length < 256 ^ 8 := Iff.rfl

@[simp] theorem fits_tagged {n : ℕ} {hn : n ≤ 256 ^ 4} {γ : Fin n → Type*}
    {f : ∀ i, PrefixCodec (γ i)} (p : Σ i, γ i) :
    (tagged hn f).Fits p ↔ (f p.1).Fits p.2 := Iff.rfl

@[simp] theorem length_encode_u16 (a : UInt16) : (u16.encode a).length = 2 :=
  Bytes.length_le 2 _

@[simp] theorem length_encode_u32 (a : UInt32) : (u32.encode a).length = 4 :=
  Bytes.length_le 4 _

@[simp] theorem length_encode_u64 (a : UInt64) : (u64.encode a).length = 8 :=
  Bytes.length_le 8 _

@[simp] theorem length_encode_bool (b : Bool) : (bool.encode b).length = 1 := rfl

@[simp] theorem length_encode_bytes {n : ℕ} (v : List.Vector UInt8 n) :
    ((bytes n).encode v).length = n :=
  v.toList_length

@[simp] theorem length_encode_map (e : α ≃ β) (b : β) :
    ((c.map e).encode b).length = (c.encode (e.symm b)).length := rfl

@[simp] theorem length_encode_pair (p : α × β) :
    ((c.pair d).encode p).length = (c.encode p.1).length + (d.encode p.2).length :=
  List.length_append

@[simp] theorem length_encode_option_none : (c.option.encode none).length = 1 := rfl

@[simp] theorem length_encode_option_some (a : α) :
    (c.option.encode (some a)).length = (c.encode a).length + 1 := rfl

@[simp] theorem length_encode_list (l : List α) :
    (c.list.encode l).length = 8 + (l.map fun a => (c.encode a).length).sum := by
  simp [list]

@[simp] theorem length_encode_string (s : String) :
    (string.encode s).length = 8 + (utf8 s).length := by
  simp [string]

@[simp] theorem length_encode_tagged {n : ℕ} {hn : n ≤ 256 ^ 4} {γ : Fin n → Type*}
    {f : ∀ i, PrefixCodec (γ i)} (p : Σ i, γ i) :
    ((tagged hn f).encode p).length = 4 + ((f p.1).encode p.2).length := by
  simp [tagged]

end Length

/-! ## Encodings whose length fits -/

/-- No length field of an encoding overflows before its own length does. -/
def LengthBounded (c : PrefixCodec α) : Prop :=
  ∀ a, (c.encode a).length < 256 ^ 8 → c.Fits a

section LengthBounded

variable {c : PrefixCodec α} {d : PrefixCodec β}

theorem lengthBounded_u16 : u16.LengthBounded := fun _ _ => trivial

theorem lengthBounded_u64 : u64.LengthBounded := fun _ _ => trivial

theorem lengthBounded_bool : bool.LengthBounded := fun _ _ => trivial

theorem lengthBounded_bytes (n : ℕ) : (bytes n).LengthBounded := fun _ _ => trivial

theorem lengthBounded_string : string.LengthBounded := by
  intro s hs
  rw [length_encode_string] at hs
  rw [fits_string]
  omega

theorem LengthBounded.map (hc : c.LengthBounded) (e : α ≃ β) : (c.map e).LengthBounded :=
  fun b hb => hc (e.symm b) hb

theorem LengthBounded.pair (hc : c.LengthBounded) (hd : d.LengthBounded) :
    (c.pair d).LengthBounded := by
  intro p hp
  rw [length_encode_pair] at hp
  exact ⟨hc p.1 (by omega), hd p.2 (by omega)⟩

theorem LengthBounded.option (hc : c.LengthBounded) : c.option.LengthBounded
  | none, _ => trivial
  | some a, ha => hc a (by rw [length_encode_option_some] at ha; omega)

/-- Each element takes at least a byte, so there are no more of them than bytes. -/
theorem LengthBounded.list (hc : c.LengthBounded) (hne : ∀ a, c.encode a ≠ []) :
    c.list.LengthBounded := by
  intro l hl
  rw [length_encode_list] at hl
  have hcount : l.length ≤ (l.map fun a => (c.encode a).length).sum := by
    have hone : ∀ n ∈ l.map fun a => (c.encode a).length, 1 ≤ n := by
      intro n hn
      obtain ⟨a, -, rfl⟩ := List.mem_map.mp hn
      exact List.length_pos_iff.mpr (hne a)
    simpa using List.length_le_sum_of_one_le _ hone
  refine ⟨by omega, fun a ha => hc a ?_⟩
  have hle : (c.encode a).length ≤ (l.map fun a => (c.encode a).length).sum :=
    List.le_sum_of_mem (List.mem_map.mpr ⟨a, ha, rfl⟩)
  omega

theorem LengthBounded.tagged {n : ℕ} {hn : n ≤ 256 ^ 4} {γ : Fin n → Type*}
    {f : ∀ i, PrefixCodec (γ i)} (hf : ∀ i, (f i).LengthBounded) :
    (PrefixCodec.tagged hn f).LengthBounded := by
  intro p hp
  rw [length_encode_tagged] at hp
  exact hf p.1 p.2 (by omega)

end LengthBounded

/-! ## Repetition -/

/-- The values read one after the other until one is not read, and the bytes that are
left. -/
def decodeAll (c : PrefixCodec α) (bs : List UInt8) : List α × List UInt8 :=
  match c.decode bs with
  | none => ([], bs)
  | some (a, rest) =>
    if rest.length < bs.length then (a :: (decodeAll c rest).1, (decodeAll c rest).2)
    else ([], bs)
termination_by bs.length

theorem decodeAll_of_none (c : PrefixCodec α) {bs : List UInt8} (h : c.decode bs = none) :
    c.decodeAll bs = ([], bs) := by
  rw [decodeAll, h]

/-- A value at the front is the first of the values read. -/
theorem decodeAll_of_some (c : PrefixCodec α) (hne : ∀ a, c.encode a ≠ []) {bs rest : List UInt8}
    {a : α} (h : c.decode bs = some (a, rest)) :
    c.decodeAll bs = (a :: (c.decodeAll rest).1, (c.decodeAll rest).2) := by
  have hlt : rest.length < bs.length := by
    rw [(c.sound h).2, List.length_append]
    have := List.length_pos_iff.mpr (hne a)
    omega
  rw [decodeAll, h]
  exact if_pos hlt

/-- Values written one after the other are read, and then what follows them. -/
theorem decodeAll_flatMap (c : PrefixCodec α) (hne : ∀ a, c.encode a ≠ []) :
    ∀ (l : List α), (∀ a ∈ l, c.Fits a) → ∀ rest, c.decodeAll (l.flatMap c.encode ++ rest) =
      (l ++ (c.decodeAll rest).1, (c.decodeAll rest).2)
  | [], _, rest => by simp
  | a :: l, h, rest => by
    have ih := decodeAll_flatMap c hne l (fun b hb => h b (List.mem_cons_of_mem a hb)) rest
    rw [List.flatMap_cons, List.append_assoc,
      c.decodeAll_of_some hne (c.decode_encode (h a List.mem_cons_self) _), ih]
    rfl

/-- The values that are read were written there, and none is at the front of what is left. -/
theorem decodeAll_sound (c : PrefixCodec α) (hne : ∀ a, c.encode a ≠ []) (bs : List UInt8) :
    (∀ a ∈ (c.decodeAll bs).1, c.Fits a) ∧
      bs = (c.decodeAll bs).1.flatMap c.encode ++ (c.decodeAll bs).2 ∧
      c.decode (c.decodeAll bs).2 = none := by
  induction hn : bs.length using Nat.strong_induction_on generalizing bs with
  | _ n ih =>
  subst hn
  cases hdec : c.decode bs with
  | none =>
    rw [c.decodeAll_of_none hdec]
    exact ⟨by simp, rfl, hdec⟩
  | some r =>
    obtain ⟨a, rest⟩ := r
    obtain ⟨hfit, hbs⟩ := c.sound hdec
    have hlt : rest.length < bs.length := by
      rw [hbs, List.length_append]
      have := List.length_pos_iff.mpr (hne a)
      omega
    obtain ⟨hfits, hrest, hnone⟩ := ih _ hlt rest rfl
    rw [c.decodeAll_of_some hne hdec]
    refine ⟨List.forall_mem_cons.mpr ⟨hfit, hfits⟩, ?_, hnone⟩
    rw [List.flatMap_cons, List.append_assoc, ← hrest, hbs]

/-- The values at the front of some bytes, as many as there are, are one list. -/
theorem decodeAll_eq_iff (c : PrefixCodec α) (hne : ∀ a, c.encode a ≠ []) {bs rest : List UInt8}
    {l : List α} : c.decodeAll bs = (l, rest) ↔
      (∀ a ∈ l, c.Fits a) ∧ bs = l.flatMap c.encode ++ rest ∧ c.decode rest = none := by
  constructor
  · intro h
    have hsound := c.decodeAll_sound hne bs
    rw [h] at hsound
    exact hsound
  · rintro ⟨hfits, rfl, hnone⟩
    rw [c.decodeAll_flatMap hne l hfits, c.decodeAll_of_none hnone, List.append_nil]

/-- Encoded values that start with an encoded value start with that value. -/
theorem flatMap_eq_append (c : PrefixCodec α) (hne : ∀ a, c.encode a ≠ []) {a : α}
    (ha : c.Fits a) {l : List α} (hl : ∀ b ∈ l, c.Fits b) {rest : List UInt8}
    (h : c.encode a ++ rest = l.flatMap c.encode) :
    ∃ l', l = a :: l' ∧ rest = l'.flatMap c.encode := by
  cases l with
  | nil => exact absurd (List.append_eq_nil_iff.mp h).1 (hne a)
  | cons b l =>
    have hdec := c.decode_encode (hl b List.mem_cons_self) (l.flatMap c.encode)
    rw [← List.flatMap_cons, ← h, c.decode_encode ha] at hdec
    obtain ⟨rfl, rfl⟩ := Prod.mk.inj (Option.some.inj hdec)
    exact ⟨l, rfl, rfl⟩

end PrefixCodec
