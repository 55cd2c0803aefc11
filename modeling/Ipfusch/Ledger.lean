import Mathlib.Data.List.AList
import Mathlib.Data.List.Induction
import Mathlib.Data.List.Nodup

/-!
# Ledgers

Entries with a key are entered and wait to be settled. The first settlement of a waiting
entry closes it, and a settlement of a key that does not wait has no effect.

`Ledger.accounts` : if no key is entered twice, then the closed entries with what settled
them and the waiting entries, taken together, are the entered entries, each once, with
the first settlement after its entry (`firstSettle`). So each entry is closed at most
once, with the data it was entered with, and by the first settlement that comes for it.
-/

set_option linter.unusedSectionVars false

namespace Ledger

/-- What can happen to a ledger. -/
inductive Op (κ δ ρ : Type*)
  | enter (k : κ) (d : δ)
  | settle (k : κ) (r : ρ)
  deriving DecidableEq

variable {κ δ ρ : Type*} [DecidableEq κ]

/-- The waiting entries by key, and the closed entries in the order they were closed. -/
structure State (κ δ ρ : Type*) where
  pending : AList fun _ : κ => δ
  closed : List (κ × δ × ρ)

/-- The ledger after an operation. -/
def State.apply (s : State κ δ ρ) : Op κ δ ρ → State κ δ ρ
  | .enter k d => { s with pending := s.pending.insert k d }
  | .settle k r =>
    match s.pending.lookup k with
    | some d => ⟨s.pending.erase k, s.closed ++ [(k, d, r)]⟩
    | none => s

/-- The ledger after some operations. -/
def run (ops : List (Op κ δ ρ)) : State κ δ ρ :=
  ops.foldl State.apply ⟨∅, []⟩

/-- The entries that were entered. -/
def entered : List (Op κ δ ρ) → List (κ × δ)
  | [] => []
  | .enter k d :: ops => (k, d) :: entered ops
  | .settle _ _ :: ops => entered ops

/-- What an operation settles the entry `k` with. -/
def Op.settles (k : κ) : Op κ δ ρ → Option ρ
  | .enter _ _ => none
  | .settle k' r => if k' = k then some r else none

/-- The first settlement of `k` after its entry. -/
def firstSettle (k : κ) : List (Op κ δ ρ) → Option ρ
  | [] => none
  | .enter k' _ :: ops => if k' = k then ops.findSome? (Op.settles k) else firstSettle k ops
  | .settle _ _ :: ops => firstSettle k ops

/-! ## One more operation -/

theorem run_concat (ops : List (Op κ δ ρ)) (op : Op κ δ ρ) :
    run (ops ++ [op]) = (run ops).apply op := by
  rw [run, List.foldl_append]
  rfl

theorem entered_append (ops ops' : List (Op κ δ ρ)) :
    entered (ops ++ ops') = entered ops ++ entered ops' := by
  induction ops with
  | nil => rfl
  | cons op ops ih => cases op <;> simp [entered, ih]

theorem entered_concat_enter (ops : List (Op κ δ ρ)) (k : κ) (d : δ) :
    entered (ops ++ [.enter k d]) = entered ops ++ [(k, d)] :=
  entered_append _ _

theorem entered_concat_settle (ops : List (Op κ δ ρ)) (k : κ) (r : ρ) :
    entered (ops ++ [.settle k r]) = entered ops :=
  (entered_append _ _).trans (List.append_nil _)

/-- A later operation settles an entry if nothing did before. -/
theorem firstSettle_concat {k : κ} (op : Op κ δ ρ) : ∀ (ops : List (Op κ δ ρ)),
    k ∈ (entered ops).map Prod.fst →
      firstSettle k (ops ++ [op]) = (firstSettle k ops).or (op.settles k)
  | [], h => by simp [entered] at h
  | .enter k' d :: ops, h => by
    rw [List.cons_append, firstSettle, firstSettle]
    split_ifs with hk
    · rw [List.findSome?_append, List.findSome?_singleton]
    · refine firstSettle_concat op ops ((List.mem_cons.mp h).resolve_left ?_)
      exact Ne.symm hk
  | .settle _ _ :: ops, h => firstSettle_concat op ops h

/-- A key that was just entered is not settled. -/
theorem firstSettle_concat_enter {k : κ} {d : δ} : ∀ (ops : List (Op κ δ ρ)),
    k ∉ (entered ops).map Prod.fst → firstSettle k (ops ++ [.enter k d]) = none
  | [], _ => by simp [firstSettle]
  | .enter k' d' :: ops, h => by
    obtain ⟨hne, h⟩ := not_or.mp (mt List.mem_cons.mpr h)
    rw [List.cons_append, firstSettle, if_neg (Ne.symm hne), firstSettle_concat_enter ops h]
  | .settle _ _ :: ops, h => firstSettle_concat_enter ops h

/-- An entry without a settlement is not settled. -/
theorem firstSettle_eq_none {k : κ} {ops : List (Op κ δ ρ)} (h : ∀ r, .settle k r ∉ ops) :
    firstSettle k ops = none := by
  induction ops with
  | nil => rfl
  | cons op ops ih =>
    have hops : ∀ r, .settle k r ∉ ops := fun r hr => h r (List.mem_cons_of_mem op hr)
    cases op with
    | settle k' r => exact ih hops
    | enter k' d =>
      rw [firstSettle]
      split_ifs
      · rw [List.findSome?_eq_none_iff]
        intro op' hop'
        cases op' with
        | enter _ _ => rfl
        | settle k' r =>
          refine if_neg ?_
          rintro rfl
          exact hops r hop'
      · exact ih hops

/-! ## Accounts -/

/-- The closed entries with what settled them, and the waiting ones. -/
def State.account (s : State κ δ ρ) : List (κ × δ × Option ρ) :=
  s.closed.map (fun e => (e.1, e.2.1, some e.2.2)) ++
    s.pending.entries.map fun e => (e.1, e.2, none)

/-- The entered entries with their first settlement. -/
def expected (ops : List (Op κ δ ρ)) : List (κ × δ × Option ρ) :=
  (entered ops).map fun e => (e.1, e.2, firstSettle e.1 ops)

/-- An entry waits if it is in the account without a settlement. -/
theorem State.mem_account_none {s : State κ δ ρ} {k : κ} {d : δ} :
    (k, d, none) ∈ s.account ↔ s.pending.lookup k = some d := by
  rw [State.account, List.mem_append, ← Option.mem_def, AList.mem_lookup_iff]
  simp only [List.mem_map, Prod.mk.injEq, reduceCtorEq, and_false, exists_false, false_or,
    and_true]
  constructor
  · rintro ⟨⟨k', d'⟩, he, rfl, rfl⟩
    exact he
  · intro he
    exact ⟨_, he, rfl, rfl⟩

theorem mem_expected {ops : List (Op κ δ ρ)} {k : κ} {d : δ} {o : Option ρ} :
    (k, d, o) ∈ expected ops ↔ (k, d) ∈ entered ops ∧ firstSettle k ops = o := by
  rw [expected, List.mem_map]
  constructor
  · rintro ⟨⟨k', d'⟩, he, h⟩
    simp only [Prod.mk.injEq] at h
    obtain ⟨rfl, rfl, rfl⟩ := h
    exact ⟨he, rfl⟩
  · rintro ⟨he, rfl⟩
    exact ⟨(k, d), he, rfl⟩

/-- Entering a new key. -/
theorem account_enter {s : State κ δ ρ} {k : κ} (h : k ∉ s.pending) (d : δ) :
    (s.apply (.enter k d)).account.Perm (s.account ++ [(k, d, none)]) := by
  rw [State.apply, State.account, State.account, AList.entries_insert_of_notMem h, List.map_cons,
    List.append_assoc]
  exact (List.perm_append_singleton _ _).symm.append_left _

/-- A waiting entry is taken out of the waiting ones. -/
theorem entries_perm_cons_erase {s : AList fun _ : κ => δ} {k : κ} {d : δ}
    (h : s.lookup k = some d) : s.entries.Perm (⟨k, d⟩ :: (s.erase k).entries) := by
  obtain ⟨b, l₁, l₂, hk, hl, he⟩ := List.exists_of_kerase
    (AList.mem_keys.mp (AList.lookup_isSome.mp (by rw [h]; rfl)))
  have hmem : (⟨k, b⟩ : Sigma fun _ : κ => δ) ∈ s.entries := by rw [hl]; simp
  obtain rfl : b = d := by
    have := AList.mem_lookup_iff.mpr hmem
    rw [h] at this
    exact (Option.some.inj this).symm
  have herase : (s.erase k).entries = l₁ ++ l₂ := he
  rw [herase, hl]
  exact List.perm_middle

/-- Settling an entry that waits. -/
theorem account_settle {s : State κ δ ρ} {k : κ} {d : δ} (h : s.pending.lookup k = some d)
    (r : ρ) : ∃ l, s.account.Perm ((k, d, none) :: l) ∧
      (s.apply (.settle k r)).account.Perm ((k, d, some r) :: l) := by
  refine ⟨s.closed.map (fun e => (e.1, e.2.1, some e.2.2)) ++
    (s.pending.erase k).entries.map fun e => (e.1, e.2, none), ?_, ?_⟩
  · have hperm := (entries_perm_cons_erase h).map
      (fun e => ((e.1, e.2, none) : κ × δ × Option ρ))
    exact (hperm.append_left _).trans List.perm_middle
  · rw [State.apply, h, State.account, List.map_append, List.append_assoc]
    exact List.perm_middle

/-- Only the entry of a key changes when it is settled. -/
theorem expected_settle {ops : List (Op κ δ ρ)} (hnodup : ((entered ops).map Prod.fst).Nodup)
    {k : κ} {d : δ} (h : (k, d) ∈ entered ops) (hnone : firstSettle k ops = none) (r : ρ) :
    ∃ l, (expected ops).Perm ((k, d, none) :: l) ∧
      (expected (ops ++ [.settle k r])).Perm ((k, d, some r) :: l) := by
  obtain ⟨l₁, l₂, hl⟩ := List.append_of_mem h
  have hmem : ∀ e ∈ entered ops, e.1 ∈ (entered ops).map Prod.fst :=
    fun e he => List.mem_map_of_mem he
  have hother : ∀ e ∈ l₁ ++ l₂, firstSettle e.1 (ops ++ [.settle k r]) = firstSettle e.1 ops := by
    intro e he
    have hne : k ≠ e.1 := by
      rw [hl, List.map_append, List.map_cons] at hnodup
      have := (List.nodup_middle.mp hnodup)
      rw [List.nodup_cons, ← List.map_append] at this
      intro hke
      have hin : e.1 ∈ (l₁ ++ l₂).map Prod.fst := List.mem_map_of_mem he
      exact this.1 (hke ▸ hin)
    have he' : e ∈ entered ops := by
      rw [hl]
      rcases List.mem_append.mp he with he | he <;> simp [he]
    rw [firstSettle_concat _ _ (hmem e he'), Op.settles, if_neg hne, Option.or_none]
  refine ⟨(l₁ ++ l₂).map fun e => (e.1, e.2, firstSettle e.1 ops), ?_, ?_⟩
  · rw [expected, hl, List.map_append, List.map_cons, hnone, List.map_append]
    exact List.perm_middle
  · have hk : firstSettle k (ops ++ [.settle k r]) = some r := by
      rw [firstSettle_concat _ _ (hmem _ h), hnone, Option.none_or, Op.settles, if_pos rfl]
    have hmap : (l₁ ++ l₂).map (fun e => (e.1, e.2, firstSettle e.1 ops)) =
        (l₁ ++ l₂).map fun e => (e.1, e.2, firstSettle e.1 (ops ++ [.settle k r])) :=
      List.map_congr_left fun e he => by rw [hother e he]
    rw [hmap, expected, entered_concat_settle, hl, List.map_append,
      List.map_cons, hk, List.map_append]
    exact List.perm_middle

/-- Settling a key that does not wait. -/
theorem expected_settle_of_notWaiting {ops : List (Op κ δ ρ)} {k : κ}
    (h : k ∈ (entered ops).map Prod.fst → firstSettle k ops ≠ none) (r : ρ) :
    expected (ops ++ [.settle k r]) = expected ops := by
  rw [expected, entered_concat_settle, expected]
  refine List.map_congr_left fun e he => ?_
  have hmem : e.1 ∈ (entered ops).map Prod.fst := List.mem_map_of_mem he
  rw [firstSettle_concat _ _ hmem, Op.settles]
  split_ifs with hk
  · subst hk
    obtain ⟨r', hr'⟩ := Option.ne_none_iff_exists'.mp (h hmem)
    rw [hr', Option.some_or]
  · rw [Option.or_none]

/-- Entering a key that was not entered before. -/
theorem expected_enter {ops : List (Op κ δ ρ)} {k : κ} (h : k ∉ (entered ops).map Prod.fst)
    (d : δ) : expected (ops ++ [.enter k d]) = expected ops ++ [(k, d, none)] := by
  have hold : ∀ e ∈ entered ops, firstSettle e.1 (ops ++ [.enter k d]) = firstSettle e.1 ops := by
    intro e he
    rw [firstSettle_concat _ _ (List.mem_map_of_mem he), Op.settles, Option.or_none]
  rw [expected, entered_concat_enter, List.map_append, expected, List.map_cons, List.map_nil,
    firstSettle_concat_enter ops h]
  congr 1
  exact List.map_congr_left fun e he => by rw [hold e he]

/-- If no key is entered twice, the closed and the waiting entries are the entered ones, each
once, with the first settlement after its entry. -/
theorem accounts {ops : List (Op κ δ ρ)} (hnodup : ((entered ops).map Prod.fst).Nodup) :
    (run ops).account.Perm (expected ops) := by
  induction ops using List.reverseRecOn with
  | nil => exact List.Perm.nil
  | append_singleton ops op ih =>
    rw [run_concat]
    cases op with
    | enter k d =>
      rw [entered_concat_enter, List.map_append, List.nodup_append] at hnodup
      have ih := ih hnodup.1
      have hfresh : k ∉ (entered ops).map Prod.fst :=
        fun hk => hnodup.2.2 k hk k (by simp) rfl
      have hpending : k ∉ (run ops).pending := by
        rw [← AList.lookup_eq_none]
        by_contra hne
        obtain ⟨d', hd'⟩ := Option.ne_none_iff_exists'.mp hne
        have hmem := mem_expected.mp (ih.mem_iff.mp (State.mem_account_none.mpr hd'))
        exact hfresh (List.mem_map_of_mem (f := Prod.fst) hmem.1)
      rw [expected_enter hfresh]
      exact (account_enter hpending d).trans (ih.append_right _)
    | settle k r =>
      rw [entered_concat_settle] at hnodup
      have ih := ih hnodup
      cases hk : (run ops).pending.lookup k with
      | some d =>
        obtain ⟨l, hl, hl'⟩ := account_settle hk r
        have hmem := mem_expected.mp (ih.mem_iff.mp (State.mem_account_none.mpr hk))
        obtain ⟨m, hm, hm'⟩ := expected_settle hnodup hmem.1 hmem.2 r
        have hlm : l.Perm m := (hl.symm.trans (ih.trans hm)).cons_inv
        exact hl'.trans ((hlm.cons _).trans hm'.symm)
      | none =>
        rw [expected_settle_of_notWaiting, State.apply, hk]
        · exact ih
        · intro hmem hnone
          obtain ⟨⟨k', d⟩, he, rfl⟩ := List.mem_map.mp hmem
          have hwait := State.mem_account_none.mp (ih.mem_iff.mpr (mem_expected.mpr ⟨he, hnone⟩))
          cases hk.symm.trans hwait

end Ledger
