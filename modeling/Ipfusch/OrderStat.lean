import Mathlib.Algebra.BigOperators.Group.List.Basic
import Mathlib.Algebra.Order.BigOperators.Group.List
import Mathlib.Algebra.GroupWithZero.Nat
import Mathlib.Algebra.Order.Group.Nat
import Mathlib.Data.List.Sort

/-!
# Order statistics

The sample of rank `k` of a list, counted from `0`, is the one at index `k` when the list is
sorted. It is determined by counting : at most `k` samples are smaller, and more than `k` are
not larger (`IsRank`). So it does not depend on the order of the samples, and grows with its
rank.

Counts add up when groups of samples are pooled. If the ranks of the groups add up to at most
the rank in the pool, then the pooled sample is not below all those of the groups
(`IsRank.exists_le_flatMap`). If the numbers of samples up to them add up to more than it, then
it is not above all of them (`IsRank.exists_flatMap_le`).
-/

namespace OrderStat

variable {α : Type*} [LinearOrder α]

/-- `x` is the sample of rank `k`. -/
structure IsRank (l : List α) (k : ℕ) (x : α) : Prop where
  lt_le : l.countP (· < x) ≤ k
  lt_countP : k < l.countP (· ≤ x)

/-! ## Counting -/

theorem countP_lt_add (l : List α) (x : α) :
    l.countP (· < x) + l.countP (x ≤ ·) = l.length := by
  rw [List.length_eq_countP_add_countP (fun y : α => decide (y < x))]
  refine congrArg _ (List.countP_congr fun y _ => ?_)
  simp

theorem countP_le_of_lt (l : List α) {x y : α} (h : x < y) :
    l.countP (· ≤ x) ≤ l.countP (· < y) :=
  List.countP_mono_left fun z _ hz => by
    simp only [decide_eq_true_eq] at hz ⊢
    exact hz.trans_lt h

/-! ## The sample of a rank -/

namespace IsRank

variable {l l' : List α} {k k' : ℕ} {x y : α}

/-- Samples grow with their rank. -/
theorem mono (hx : IsRank l k x) (hy : IsRank l k' y) (h : k ≤ k') : x ≤ y := by
  by_contra hlt
  have hcount := countP_le_of_lt l (not_le.mp hlt)
  have := hx.lt_le
  have := hy.lt_countP
  omega

theorem unique (hx : IsRank l k x) (hy : IsRank l k y) : x = y :=
  le_antisymm (hx.mono hy le_rfl) (hy.mono hx le_rfl)

theorem perm (h : IsRank l k x) (hl : l.Perm l') : IsRank l' k x :=
  ⟨by rw [← hl.countP_eq]; exact h.lt_le, by rw [← hl.countP_eq]; exact h.lt_countP⟩

theorem mem (h : IsRank l k x) : x ∈ l := by
  by_contra hx
  have hcount : l.countP (· ≤ x) = l.countP (· < x) :=
    List.countP_congr fun y hy => by
      have hne : y ≠ x := fun heq => hx (heq ▸ hy)
      simp only [decide_eq_true_eq]
      exact ⟨fun hle => lt_of_le_of_ne hle hne, le_of_lt⟩
  have := h.lt_le
  have := h.lt_countP
  omega

/-- The rest of the samples are not smaller. -/
theorem le_countP_ge (h : IsRank l k x) : l.length - k ≤ l.countP (x ≤ ·) := by
  have := countP_lt_add l x
  have := h.lt_le
  omega

/-- The sample of rank `0` is the smallest. -/
theorem le_of_zero (h : IsRank l 0 x) (hy : y ∈ l) : x ≤ y := by
  have hzero : l.countP (· < x) = 0 := Nat.le_zero.mp h.lt_le
  simpa using List.countP_eq_zero.mp hzero y hy

/-- The sample of the last rank is the largest. -/
theorem le_of_last (h : IsRank l (l.length - 1) x) (hy : y ∈ l) : y ≤ x := by
  have hall : l.countP (· ≤ x) = l.length := by
    have := h.lt_countP
    have := List.countP_le_length (p := fun z : α => decide (z ≤ x)) (l := l)
    omega
  simpa using List.countP_eq_length.mp hall y hy

end IsRank

/-- In a sorted list the sample of a rank is at that index. -/
theorem isRank_of_pairwise {l : List α} (h : l.Pairwise (· ≤ ·)) {k : ℕ} (hk : k < l.length) :
    IsRank l k l[k] := by
  have hsplit : ∀ p : α → Bool, l.countP p = (l.take k).countP p + (l.drop k).countP p := by
    intro p
    rw [← List.countP_append, List.take_append_drop]
  have htake : ∀ y ∈ l.take k, y ≤ l[k] := by
    intro y hy
    obtain ⟨i, hi, rfl⟩ := List.mem_take_iff_getElem.mp hy
    exact List.pairwise_iff_getElem.mp h i k (by omega) hk (by omega)
  have hdrop : ∀ y ∈ l.drop k, l[k] ≤ y := by
    intro y hy
    obtain ⟨i, hi, rfl⟩ := List.mem_drop_iff_getElem.mp hy
    rcases Nat.eq_zero_or_pos i with rfl | hpos
    · exact le_rfl
    · exact List.pairwise_iff_getElem.mp h k (k + i) hk (by omega) (by omega)
  constructor
  · have hzero : (l.drop k).countP (· < l[k]) = 0 :=
      List.countP_eq_zero.mpr fun y hy => by simpa using hdrop y hy
    rw [hsplit, hzero, Nat.add_zero]
    exact List.countP_le_length.trans (List.length_take_le _ _)
  · have hall : (l.take k).countP (· ≤ l[k]) = k := by
      rw [List.countP_eq_length.mpr fun y hy => by simpa using htake y hy, List.length_take,
        min_eq_left hk.le]
    have hone : 0 < (l.drop k).countP (· ≤ l[k]) := by
      rw [List.drop_eq_getElem_cons hk]
      exact List.countP_pos_iff.mpr ⟨l[k], List.mem_cons_self, by simp⟩
    rw [hsplit, hall]
    omega

/-- The sample of a rank is at that index of the sorted list. -/
theorem isRank_mergeSort {l : List α} {k : ℕ} (hk : k < (l.mergeSort (· ≤ ·)).length) :
    IsRank l k (l.mergeSort (· ≤ ·))[k] :=
  (isRank_of_pairwise (List.pairwise_mergeSort' (· ≤ ·) l) hk).perm (List.mergeSort_perm l _)

/-! ## Pools -/

section Pool

variable {ι : Type*} {groups : List ι} {samples : ι → List α} {k : ι → ℕ} {x : ι → α} {K : ℕ}
  {y : α}

/-- A pooled sample is not below those of all groups, if its rank is not below the sum of
theirs. -/
theorem IsRank.exists_le_flatMap (hy : IsRank (groups.flatMap samples) K y)
    (hx : ∀ g ∈ groups, samples g ≠ [] → IsRank (samples g) (k g) (x g))
    (hk : (groups.map k).sum ≤ K) : ∃ g ∈ groups, samples g ≠ [] ∧ x g ≤ y := by
  by_contra! hall
  have hcount : (groups.flatMap samples).countP (· ≤ y) ≤ (groups.map k).sum := by
    rw [List.countP_flatMap]
    refine List.sum_le_sum fun g hg => ?_
    by_cases hnil : samples g = []
    · simp [hnil]
    · exact (countP_le_of_lt _ (hall g hg hnil)).trans (hx g hg hnil).lt_le
  have := hy.lt_countP
  omega

/-- A pooled sample is not above those of all groups, if its rank is below the number of the
samples up to them. -/
theorem IsRank.exists_flatMap_le (hy : IsRank (groups.flatMap samples) K y)
    (hx : ∀ g ∈ groups, samples g ≠ [] → IsRank (samples g) (k g) (x g))
    (hk : K < (groups.map fun g => if samples g = [] then 0 else k g + 1).sum) :
    ∃ g ∈ groups, samples g ≠ [] ∧ y ≤ x g := by
  by_contra! hall
  have hcount : (groups.map fun g => if samples g = [] then 0 else k g + 1).sum ≤
      (groups.flatMap samples).countP (· < y) := by
    rw [List.countP_flatMap]
    refine List.sum_le_sum fun g hg => ?_
    split_ifs with hnil
    · exact Nat.zero_le _
    · exact (hx g hg hnil).lt_countP.trans_le (countP_le_of_lt _ (hall g hg hnil))
  have := hy.lt_le
  omega

end Pool

end OrderStat
