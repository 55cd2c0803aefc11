import Mathlib.Data.List.Basic
import Mathlib.Algebra.Order.Group.Nat
import Mathlib.Tactic.Ring

/-!
# Byte strings

Little-endian numbers of a fixed width (`le`, `ofLe`), the exact read of a number of
bytes (`takeExact`), and slices of a buffer that are read and overwritten in place
(`slice`, `copySlice`).
-/

namespace Bytes

/-! ## Little-endian numbers -/

/-- The `w` low bytes of `n`, lowest first. -/
def le : ℕ → ℕ → List UInt8
  | 0, _ => []
  | w + 1, n => UInt8.ofNat n :: le w (n / 256)

/-- The number whose bytes are given, lowest first. -/
def ofLe : List UInt8 → ℕ
  | [] => 0
  | b :: bs => b.toNat + 256 * ofLe bs

@[simp] theorem length_le : ∀ w n : ℕ, (le w n).length = w
  | 0, _ => rfl
  | w + 1, n => by simp [le, length_le w]

theorem ofLe_lt : ∀ bs : List UInt8, ofLe bs < 256 ^ bs.length
  | [] => by simp [ofLe]
  | b :: bs => by
    have ih := ofLe_lt bs
    have hb : b.toNat < 256 := b.toNat_lt
    rw [ofLe, List.length_cons, pow_succ]
    omega

/-- Reading back `w` bytes of `n` loses the part of `n` above them. -/
theorem ofLe_le : ∀ w n : ℕ, ofLe (le w n) = n % 256 ^ w
  | 0, n => by simp [le, ofLe, Nat.mod_one]
  | w + 1, n => by
    rw [le, ofLe, ofLe_le w, pow_succ', Nat.mod_mul, UInt8.toNat_ofNat']

theorem ofLe_le_of_lt {w n : ℕ} (h : n < 256 ^ w) : ofLe (le w n) = n := by
  rw [ofLe_le, Nat.mod_eq_of_lt h]

/-- The bytes of the number read from some bytes are those bytes. -/
theorem le_ofLe : ∀ bs : List UInt8, le bs.length (ofLe bs) = bs
  | [] => rfl
  | b :: bs => by
    have hb : b.toNat < 256 := b.toNat_lt
    have hmod : (b.toNat + 256 * ofLe bs) / 256 = ofLe bs := by omega
    rw [List.length_cons, ofLe, le, hmod, le_ofLe bs]
    congr 1
    apply UInt8.toNat_inj.mp
    rw [UInt8.toNat_ofNat']
    omega

theorem le_ofLe_of_length {bs : List UInt8} {w : ℕ} (h : bs.length = w) :
    le w (ofLe bs) = bs := by
  subst h
  exact le_ofLe bs

/-! ## Reading exactly `n` bytes -/

/-- The first `n` bytes and what follows, or `none` if there are fewer. -/
def takeExact (n : ℕ) (bs : List UInt8) : Option (List UInt8 × List UInt8) :=
  if n ≤ bs.length then some (bs.take n, bs.drop n) else none

theorem takeExact_append {n : ℕ} {a : List UInt8} (h : a.length = n) (rest : List UInt8) :
    takeExact n (a ++ rest) = some (a, rest) := by
  subst h
  simp [takeExact]

theorem takeExact_eq_some {n : ℕ} {bs a rest : List UInt8} :
    takeExact n bs = some (a, rest) ↔ a.length = n ∧ bs = a ++ rest := by
  constructor
  · intro h
    unfold takeExact at h
    split_ifs at h with hn
    simp only [Option.some.injEq, Prod.mk.injEq] at h
    obtain ⟨rfl, rfl⟩ := h
    exact ⟨by simp [hn], (List.take_append_drop n bs).symm⟩
  · rintro ⟨h, rfl⟩
    exact takeExact_append h rest

theorem takeExact_eq_none {n : ℕ} {bs : List UInt8} :
    takeExact n bs = none ↔ bs.length < n := by
  simp [takeExact]

/-! ## Slices of a buffer -/

/-- `buf[lo..hi]`. -/
def slice (buf : List UInt8) (lo hi : ℕ) : List UInt8 :=
  (buf.take hi).drop lo

/-- `buf[lo..hi].copy_from_slice(src)` for a `src` of `hi - lo` bytes. -/
def copySlice (buf : List UInt8) (lo hi : ℕ) (src : List UInt8) : List UInt8 :=
  buf.take lo ++ src ++ buf.drop hi

theorem length_slice {buf : List UInt8} {lo hi : ℕ} (h : hi ≤ buf.length) :
    (slice buf lo hi).length = hi - lo := by
  simp [slice, Nat.min_eq_left h]

/-- Overwriting the zeros after what is already written appends. -/
theorem copySlice_append_replicate {done src : List UInt8} {lo hi n : ℕ}
    (hlo : done.length = lo) (hhi : lo + src.length = hi) :
    copySlice (done ++ List.replicate n 0) lo hi src =
      (done ++ src) ++ List.replicate (n - src.length) 0 := by
  subst hlo hhi
  simp [copySlice, List.drop_append]

end Bytes
