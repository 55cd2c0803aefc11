import Mathlib.Algebra.BigOperators.Group.Finset.Basic
import Mathlib.Algebra.BigOperators.Group.Finset.Piecewise
import Mathlib.Data.List.Induction

/-!
# Keyed folds

Events that have a key are folded into accumulators, one for each key. They are kept in an
ordered map, and made when the first event of their key comes.

The map is determined by the events of each key alone (`getElem?_fold`), so it does not
depend on how the events of different keys are interleaved (`toList_fold_congr`). A quantity
that each event adds to its accumulator adds up, over all accumulators, to what all events
add (`sum_values_fold`).
-/

namespace KeyedFold

variable {κ ε σ : Type} [Ord κ] [Std.TransOrd κ] [Std.LawfulEqOrd κ] [DecidableEq κ]

/-- The events of a key. -/
def ofKey (key : ε → κ) (k : κ) (events : List ε) : List ε :=
  events.filter fun e => key e = k

/-- An event is recorded by the accumulator of its key. -/
def insert (key : ε → κ) (init : σ) (record : σ → ε → σ) (m : Std.TreeMap κ σ) (e : ε) :
    Std.TreeMap κ σ :=
  Std.TreeMap.insert m (key e) (record (m.getD (key e) init) e)

/-- The accumulators after some events. -/
def fold (key : ε → κ) (init : σ) (record : σ → ε → σ) (events : List ε) : Std.TreeMap κ σ :=
  events.foldl (insert key init record) ∅

section Fold

variable (key : ε → κ) (init : σ) (record : σ → ε → σ)

omit [Ord κ] [Std.TransOrd κ] [Std.LawfulEqOrd κ] in
theorem ofKey_concat (k : κ) (events : List ε) (e : ε) :
    ofKey key k (events ++ [e]) = ofKey key k events ++ if key e = k then [e] else [] := by
  unfold ofKey
  split_ifs with h <;> simp [h]

/-- The accumulator of a key is the fold of the events of that key. -/
theorem getElem?_fold (events : List ε) (k : κ) : (fold key init record events)[k]? =
    if ofKey key k events = [] then none else some ((ofKey key k events).foldl record init) := by
  induction events using List.reverseRecOn with
  | nil => simp [fold, ofKey]
  | append_singleton events e ih =>
    have hfold : fold key init record (events ++ [e]) =
        insert key init record (fold key init record events) e := by
      unfold fold
      rw [List.foldl_concat]
    rw [hfold, ofKey_concat, insert, Std.TreeMap.getElem?_insert]
    simp only [Std.LawfulEqCmp.compare_eq_iff_eq]
    split_ifs with hk hnil hnil
    · simp at hnil
    · rw [Std.TreeMap.getD_eq_getD_getElem?, hk, ih, List.foldl_concat]
      split_ifs with hold
      · rw [hold]
        rfl
      · rfl
    · rw [ih, if_pos (by simpa using hnil)]
    · rw [ih, if_neg (by simpa using hnil), List.append_nil]

/-- A key has an accumulator if it has an event. -/
theorem mem_keys_fold {events : List ε} {k : κ} :
    k ∈ (fold key init record events).keys ↔ ∃ e ∈ events, key e = k := by
  rw [Std.TreeMap.mem_keys, Std.TreeMap.mem_iff_isSome_getElem?, getElem?_fold]
  split_ifs with h
  · simpa [ofKey, List.filter_eq_nil_iff] using h
  · obtain ⟨e, he⟩ := List.exists_mem_of_ne_nil _ h
    simp only [ofKey, List.mem_filter, decide_eq_true_eq] at he
    simpa using ⟨e, he⟩

/-- The keys, from a sorted list of those that have an event. -/
theorem keys_fold_eq {events : List ε} {ks : List κ}
    (hks : ks.Pairwise fun k k' => compare k k' = .lt)
    (h : ∀ k, k ∈ ks ↔ ∃ e ∈ events, key e = k) : (fold key init record events).keys = ks := by
  have hnodup : ks.Nodup := hks.imp fun {k k'} hlt heq => by
    rw [heq, Std.compare_self] at hlt
    exact absurd hlt (by decide)
  have hperm : (fold key init record events).keys.Perm ks :=
    (List.perm_ext_iff_of_nodup Std.TreeMap.nodup_keys hnodup).mpr fun k => by
      rw [h, mem_keys_fold]
  refine hperm.eq_of_pairwise (fun k k' _ _ hlt hgt => ?_) Std.TreeMap.ordered_keys hks
  rw [Std.OrientedOrd.eq_swap, hlt] at hgt
  exact absurd hgt (by decide)

/-- The entries of the map. -/
theorem mem_toList_fold {events : List ε} {k : κ} {s : σ}
    (h : (k, s) ∈ (fold key init record events).toList) :
    s = (ofKey key k events).foldl record init := by
  rw [Std.TreeMap.mem_toList_iff_getElem?_eq_some, getElem?_fold] at h
  split_ifs at h
  exact (Option.some.inj h).symm

omit [Std.TransOrd κ] [Std.LawfulEqOrd κ] [DecidableEq κ] in
theorem values_eq (m : Std.TreeMap κ σ) : m.values = m.toList.map Prod.snd := by
  show m.inner.inner.values = (Std.DTreeMap.Internal.Impl.Const.toList m.inner.inner).map Prod.snd
  simp [Std.DTreeMap.Internal.Impl.values_eq_map_snd,
    Std.DTreeMap.Internal.Impl.Const.toList_eq_toListModel_map]

/-- The accumulators in the order of their keys. -/
theorem values_fold (events : List ε) : (fold key init record events).values =
    (fold key init record events).keys.map fun k => (ofKey key k events).foldl record init := by
  rw [values_eq, ← Std.TreeMap.map_fst_toList_eq_keys, List.map_map]
  exact List.map_congr_left fun p hp => mem_toList_fold key init record hp

/-! ## Interleavings -/

theorem equiv_fold {events events' : List ε} (h : ∀ k, ofKey key k events = ofKey key k events') :
    (fold key init record events).Equiv (fold key init record events') := by
  refine .of_forall_constGet?_eq fun k => ?_
  rw [getElem?_fold, getElem?_fold, h]

omit [Ord κ] [Std.TransOrd κ] [Std.LawfulEqOrd κ] in
/-- The same events of each key are the same events, in another order. -/
theorem perm_of_ofKey [DecidableEq ε] {events events' : List ε}
    (h : ∀ k, ofKey key k events = ofKey key k events') : events.Perm events' := by
  have hcount : ∀ (l : List ε) (e : ε), (ofKey key (key e) l).count e = l.count e :=
    fun l e => List.count_filter (by simp)
  exact List.perm_iff_count.mpr fun e => by rw [← hcount, h, hcount]

/-- The same events of each key make the same map. -/
theorem toList_fold_congr {events events' : List ε}
    (h : ∀ k, ofKey key k events = ofKey key k events') :
    (fold key init record events).toList = (fold key init record events').toList :=
  (equiv_fold key init record h).toList_eq

end Fold

/-! ## Sums -/

section Sum

variable {M : Type} [AddCommMonoid M]

/-- A quantity of a fold to which each event adds. -/
theorem foldl_eq_sum {record : σ → ε → σ} {μ : σ → M} {w : ε → M}
    (h : ∀ s e, μ (record s e) = μ s + w e) :
    ∀ (events : List ε) (s : σ), μ (events.foldl record s) = μ s + (events.map w).sum
  | [], s => by simp
  | e :: events, s => by
    rw [List.foldl_cons, foldl_eq_sum h events, h, List.map_cons, List.sum_cons, add_assoc]

omit [Ord κ] [Std.TransOrd κ] [Std.LawfulEqOrd κ] in
/-- Each event is one of one key. -/
theorem sum_ofKey (key : ε → κ) (w : ε → M) {ks : List κ} (hks : ks.Nodup) :
    ∀ (events : List ε), (∀ e ∈ events, key e ∈ ks) →
      (ks.map fun k => ((ofKey key k events).map w).sum).sum = (events.map w).sum
  | [], _ => by simp [ofKey]
  | e :: events, hmem => by
    have hhead : ∀ k, ((ofKey key k (e :: events)).map w).sum =
        (if key e = k then w e else 0) + ((ofKey key k events).map w).sum := by
      intro k
      unfold ofKey
      rw [List.filter_cons]
      by_cases h : key e = k <;> simp [h]
    have hone : (ks.map fun k => if key e = k then w e else 0).sum = w e := by
      rw [← List.sum_toFinset _ hks, Finset.sum_ite_eq,
        if_pos (List.mem_toFinset.mpr (hmem e List.mem_cons_self))]
    rw [List.map_congr_left fun k _ => hhead k, List.sum_map_add, hone,
      sum_ofKey key w hks events fun e he => hmem e (List.mem_cons_of_mem _ he), List.map_cons,
      List.sum_cons]

/-- What the events add, over all accumulators. -/
theorem sum_values_fold (key : ε → κ) {init : σ} {record : σ → ε → σ} {μ : σ → M} {w : ε → M}
    (h0 : μ init = 0) (h : ∀ s e, μ (record s e) = μ s + w e) (events : List ε) :
    ((fold key init record events).values.map μ).sum = (events.map w).sum := by
  have hμ : ∀ k, μ ((ofKey key k events).foldl record init) = ((ofKey key k events).map w).sum := by
    intro k
    rw [foldl_eq_sum h, h0, zero_add]
  rw [values_fold, List.map_map]
  exact (congrArg List.sum (List.map_congr_left fun k _ => hμ k)).trans
    (sum_ofKey key w Std.TreeMap.nodup_keys events fun e he =>
      (mem_keys_fold key init record).mpr ⟨e, he, rfl⟩)

end Sum

end KeyedFold
