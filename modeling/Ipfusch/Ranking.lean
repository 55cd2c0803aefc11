import Mathlib.Data.List.Sort

/-!
# Ranking by a score

`rank` sorts a list by descending score, and is stable : entries of one score keep their order
(`filter_rank`). Where an entry of a higher score is listed, it is before one of a lower score
(`lt_of_score_lt`).
-/

namespace Ranking

variable {α β : Type*} [LinearOrder β] (score : α → β)

/-- The entries by descending score. -/
def rank (l : List α) : List α :=
  l.mergeSort fun a b => score b ≤ score a

theorem perm_rank (l : List α) : (rank score l).Perm l :=
  List.mergeSort_perm l _

theorem length_rank (l : List α) : (rank score l).length = l.length :=
  List.length_mergeSort l

theorem rank_trans (a b c : α) : decide (score b ≤ score a) = true →
    decide (score c ≤ score b) = true → decide (score c ≤ score a) = true := by
  simp only [decide_eq_true_eq]
  exact fun hab hbc => hbc.trans hab

theorem rank_total (a b : α) :
    (decide (score b ≤ score a) || decide (score a ≤ score b)) = true := by
  simpa using le_total (score b) (score a)

/-- No score is above one before it. -/
theorem pairwise_rank (l : List α) : (rank score l).Pairwise fun a b => score b ≤ score a :=
  (List.pairwise_mergeSort (rank_trans score) (rank_total score) l).imp of_decide_eq_true

/-- Entries of one score keep their order. -/
theorem filter_rank (l : List α) (v : β) :
    (rank score l).filter (fun a => score a = v) = l.filter fun a => score a = v := by
  have hscore : ∀ a ∈ l.filter fun a => score a = v, score a = v :=
    fun a ha => of_decide_eq_true (List.mem_filter.mp ha).2
  have hsorted : (l.filter fun a => score a = v).Pairwise fun a b => decide (score b ≤ score a) :=
    List.pairwise_iff_forall_sublist.mpr fun {a b} hab => by
      have ha := hscore a (hab.subset (by simp))
      have hb := hscore b (hab.subset (by simp))
      rw [ha, hb]
      exact decide_eq_true le_rfl
  have hsub : (l.filter fun a => score a = v).Sublist (rank score l) :=
    List.sublist_mergeSort (rank_trans score) (rank_total score) hsorted List.filter_sublist
  have hfilter := hsub.filter fun a => score a = v
  rw [List.filter_filter] at hfilter
  simp only [Bool.and_self] at hfilter
  exact (hfilter.eq_of_length ((perm_rank score l).symm.filter _).length_eq).symm

/-- An entry of a higher score is before one of a lower score. -/
theorem lt_of_score_lt {l : List α} {i j : ℕ} {a b : α} (ha : (rank score l)[i]? = some a)
    (hb : (rank score l)[j]? = some b) (h : score b < score a) : i < j := by
  obtain ⟨hi, rfl⟩ := List.getElem?_eq_some_iff.mp ha
  obtain ⟨hj, rfl⟩ := List.getElem?_eq_some_iff.mp hb
  rcases lt_trichotomy i j with hlt | rfl | hgt
  · exact hlt
  · exact absurd h (lt_irrefl _)
  · exact absurd (List.pairwise_iff_getElem.mp (pairwise_rank score l) j i hj hi hgt)
      (not_le.mpr h)

/-- No entry that is left out has a higher score than one that is listed. -/
theorem le_of_mem_take {l : List α} {n : ℕ} {a b : α} (ha : a ∈ (rank score l).take n)
    (hb : b ∈ (rank score l).drop n) : score b ≤ score a := by
  have hsorted := pairwise_rank score l
  rw [← List.take_append_drop n (rank score l)] at hsorted
  exact (List.pairwise_append.mp hsorted).2.2 a ha b hb

end Ranking
