import Ipfusch.Machine
import Mathlib.Algebra.BigOperators.Group.Finset.Piecewise
import Mathlib.Data.Fintype.BigOperators
import Mathlib.Logic.Function.Basic

/-!
# Fleets

A fleet is a family of machines that step on their own, in any order. What a member shows is
marked with the member. A run of the fleet is a run of each member (`reach_part`).

A staged machine is entered later, with a parameter that is chosen then, or fails before. A run of
it is a run of the machine with this parameter (`staged_reach`). A gated machine is entered from a
state of another machine that is ready for it. It is a staged machine (`gated_stage`), and was ready
when it was entered (`gated_reach`).
-/

namespace Fleet

variable {ι σ α ω : Type*} [DecidableEq ι]

/-- The members of a family, side by side. -/
def machine (M : ι → Machine σ α ω) : Machine (ι → σ) (ι × α) (ι × ω) where
  init i := (M i).init
  step s a := ((M a.1).step (s a.1) a.2).map fun r =>
    (Function.update s a.1 r.1, r.2.map (Prod.mk a.1))

/-- What a member shows. -/
def part (i : ι) (t : List (ι × ω)) : List ω :=
  t.filterMap fun o => if o.1 = i then some o.2 else none

theorem part_append (i : ι) (t t' : List (ι × ω)) : part i (t ++ t') = part i t ++ part i t' :=
  List.filterMap_append

theorem part_map (i j : ι) (o : List ω) :
    part i (o.map (Prod.mk j)) = if j = i then o else [] := by
  unfold part
  rw [List.filterMap_map]
  split_ifs with h
  · simp [h]
  · simp [h]

variable {M : ι → Machine σ α ω} {t : List (ι × ω)} {s s' : ι → σ}

/-- A step of the fleet is a step of one member. -/
theorem step_cases {a : ι × α} {o : List (ι × ω)} (h : (machine M).step s a = some (s', o)) :
    ∃ c o', (M a.1).step (s a.1) a.2 = some (c, o') ∧ s' = Function.update s a.1 c ∧
      o = o'.map (Prod.mk a.1) := by
  obtain ⟨⟨c, o'⟩, hstep, h⟩ := Option.map_eq_some_iff.mp h
  obtain ⟨rfl, rfl⟩ := Prod.mk.inj h
  exact ⟨c, o', hstep, rfl, rfl⟩

/-- A run of the fleet is a run of each member. -/
theorem reach_part (h : (machine M).Reach t s) (i : ι) : (M i).Reach (part i t) (s i) := by
  refine h.invariant (I := fun t s => (M i).Reach (part i t) (s i)) .start fun _ ih hstep => ?_
  obtain ⟨c, o, hc, rfl, rfl⟩ := step_cases hstep
  rw [part_append, part_map]
  split_ifs with hi
  · subst hi
    rw [Function.update_self]
    exact ih.step hc
  · rw [List.append_nil, Function.update_of_ne (Ne.symm hi)]
    exact ih

/-- What all members show of a kind, filtered by a mark that tells them apart, is what one member
shows. -/
theorem filter_filterMap {γ κ : Type*} [DecidableEq κ] {f : ω → Option γ} {mark : γ → κ}
    (key : ι → κ) {t : List (ι × ω)} (hkey : ∀ o ∈ t, ∀ c ∈ f o.2, mark c = key o.1)
    {i : ι} (hi : ∀ j, key j = key i → j = i) :
    (t.filterMap fun o => f o.2).filter (fun c => mark c = key i) = (part i t).filterMap f := by
  induction t with
  | nil => rfl
  | cons o t ih =>
    have ih := ih fun o' ho' => hkey o' (List.mem_cons_of_mem o ho')
    have ho := hkey o List.mem_cons_self
    unfold part at ih ⊢
    simp only [List.filterMap_cons]
    cases hf : f o.2 with
    | none =>
      rw [ih]
      split_ifs <;> simp [hf]
    | some c =>
      have hmark : mark c = key o.1 := ho c hf
      rw [List.filter_cons, ih, hmark]
      by_cases hio : o.1 = i
      · simp [hio, hf]
      · have hne : key o.1 ≠ key i := fun h => hio (hi _ h)
        simp [hio, hne]

/-- A quantity of what all members show adds up over the members. -/
theorem sum_filterMap [Fintype ι] {γ N : Type*} [AddCommMonoid N] (f : ω → Option γ) (w : γ → N)
    (t : List (ι × ω)) : ((t.filterMap fun o => f o.2).map w).sum =
      ∑ i, (((part i t).filterMap f).map w).sum := by
  induction t with
  | nil => simp [part]
  | cons o t ih =>
    have hpart : ∀ i, (((part i (o :: t)).filterMap f).map w).sum =
        (if o.1 = i then ((f o.2).toList.map w).sum else 0) +
          (((part i t).filterMap f).map w).sum := by
      intro i
      unfold part
      rw [List.filterMap_cons]
      split_ifs with h
      · cases hf : f o.2 <;> simp [hf]
      · simp
    rw [Finset.sum_congr rfl fun i _ => hpart i, Finset.sum_add_distrib, Finset.sum_ite_eq,
      if_pos (Finset.mem_univ _), ← ih, List.filterMap_cons]
    cases hf : f o.2 <;> simp

/-- A step of a member lowers a sum over the members by as much as the member's part. -/
theorem sum_update_add_le [Fintype ι] (f : ι → σ → ℕ) (s : ι → σ) {i : ι} {c : σ} {k : ℕ}
    (h : f i c + k ≤ f i (s i)) : ∑ j, f j (Function.update s i c j) + k ≤ ∑ j, f j (s j) := by
  have hupdate : ∑ j, f j (Function.update s i c j) =
      f i c + ∑ j ∈ Finset.univ \ {i}, f j (s j) := by
    rw [Finset.sum_congr rfl fun j _ => Function.apply_update f s i c j,
      Finset.sum_update_of_mem (Finset.mem_univ i)]
  rw [hupdate, Finset.sum_eq_add_sum_sdiff_singleton_of_mem (Finset.mem_univ i) fun j => f j (s j)]
  omega

/-- What a member can do alone, it can do in the fleet. -/
theorem exec_part {i : ι} {c : σ} {t : List ω} {as : List α}
    (h : (M i).exec (s i) as = some (c, t)) :
    (machine M).exec s (as.map (Prod.mk i)) =
      some (Function.update s i c, t.map (Prod.mk i)) := by
  induction as generalizing s t with
  | nil =>
    obtain ⟨rfl, rfl⟩ := Prod.mk.inj (Option.some.inj h)
    rw [Function.update_eq_self]
    rfl
  | cons a as ih =>
    obtain ⟨c₁, o, t₁, hstep, hexec, rfl⟩ := Machine.exec_cons h
    have hfleet : (machine M).step s (i, a) =
        some (Function.update s i c₁, o.map (Prod.mk i)) :=
      congrArg (Option.map _) hstep
    have hrest := ih (s := Function.update s i c₁) (t := t₁) (by rwa [Function.update_self])
    rw [Function.update_idem] at hrest
    rw [List.map_cons, Machine.exec, hfleet]
    dsimp only
    rw [hrest, List.map_append]
    rfl

/-! ## Staged machines -/

/-- Where a staged machine is. -/
inductive Stage (ρ ε σ : Type*)
  | before
  | failed (e : ε)
  | running (p : ρ) (s : σ)

/-- What can come next. -/
inductive StageAction (ρ ε α : Type*)
  | enter (p : ρ)
  | fail (e : ε)
  | step (a : α)

variable {ρ ε : Type*}

/-- A machine that is entered later. -/
def staged (M : ρ → Machine σ α ω) : Machine (Stage ρ ε σ) (StageAction ρ ε α) ω where
  init := .before
  step
    | .before, .enter p => some (.running p (M p).init, [])
    | .before, .fail e => some (.failed e, [])
    | .running p s, .step a => ((M p).step s a).map fun r => (.running p r.1, r.2)
    | _, _ => none

/-- A run of a staged machine : nothing is shown before it is entered, and then a run of the
machine. -/
def Entered (M : ρ → Machine σ α ω) (t : List ω) : Stage ρ ε σ → Prop
  | .before | .failed _ => t = []
  | .running p s => (M p).Reach t s

theorem staged_cases {M : ρ → Machine σ α ω} {s s' : Stage ρ ε σ} {a : StageAction ρ ε α}
    {o : List ω} (h : (staged M).step s a = some (s', o)) :
    (s = .before ∧ o = [] ∧ ((∃ e, s' = .failed e) ∨ ∃ p, s' = .running p (M p).init)) ∨
      ∃ p c a c', s = .running p c ∧ s' = .running p c' ∧ (M p).step c a = some (c', o) := by
  cases s with
  | before =>
    cases a with
    | enter p =>
      obtain ⟨rfl, rfl⟩ := Prod.mk.inj (Option.some.inj h)
      exact Or.inl ⟨rfl, rfl, Or.inr ⟨p, rfl⟩⟩
    | fail e =>
      obtain ⟨rfl, rfl⟩ := Prod.mk.inj (Option.some.inj h)
      exact Or.inl ⟨rfl, rfl, Or.inl ⟨e, rfl⟩⟩
    | step a => cases h
  | failed e => cases a <;> cases h
  | running p c =>
    cases a with
    | enter p | fail e => cases h
    | step a =>
      obtain ⟨⟨c', o'⟩, hstep, h⟩ := Option.map_eq_some_iff.mp h
      obtain ⟨rfl, rfl⟩ := Prod.mk.inj h
      exact Or.inr ⟨p, c, a, c', rfl, rfl, hstep⟩

theorem staged_reach {M : ρ → Machine σ α ω} {t : List ω} {s : Stage ρ ε σ}
    (h : (staged M).Reach t s) : Entered M t s := by
  refine Machine.Reach.invariant (M := staged M) (I := Entered M) rfl (fun _ ih hstep => ?_) h
  rcases staged_cases hstep with ⟨rfl, rfl, ⟨e, rfl⟩ | ⟨p, rfl⟩⟩ | ⟨p, c, a, c', rfl, rfl, hc⟩
  · exact (List.append_nil _).trans ih
  · rw [(List.append_nil _).trans ih]
    exact .start
  · exact Machine.Reach.step ih hc

theorem staged_exec {M : ρ → Machine σ α ω} {p : ρ} {c c' : σ} {as : List α} {t : List ω}
    (h : (M p).exec c as = some (c', t)) :
    (staged (ε := ε) M).exec (.running p c) (as.map .step) = some (.running p c', t) := by
  induction as generalizing c t with
  | nil =>
    obtain ⟨rfl, rfl⟩ := Prod.mk.inj (Option.some.inj h)
    rfl
  | cons a as ih =>
    obtain ⟨c₁, o, t₁, hstep, hexec, rfl⟩ := Machine.exec_cons h
    have hstaged : (staged (ε := ε) M).step (.running p c) (.step a) =
        some (.running p c₁, o) :=
      congrArg (Option.map _) hstep
    rw [List.map_cons, Machine.exec, hstaged]
    dsimp only
    rw [ih hexec]
    rfl

/-! ## Gated machines -/

/-- Where a gated machine is. -/
inductive Gate (δ ρ ε σ : Type*)
  | opening (d : δ)
  | failed (e : ε)
  | running (d : δ) (p : ρ) (s : σ)

/-- What can come next. -/
inductive GateAction (β ρ ε α : Type*)
  | before (b : β)
  | enter (p : ρ)
  | fail (e : ε)
  | step (a : α)

variable {δ β κ : Type*}

/-- The stage of a gated machine. -/
def Gate.stage : Gate δ ρ ε σ → Stage ρ ε σ
  | .opening _ => .before
  | .failed e => .failed e
  | .running _ p s => .running p s

/-- A machine that is entered from a state of `D` that is ready. -/
def gated (D : Machine δ β κ) (ready : δ → Bool) (M : ρ → Machine σ α ω) :
    Machine (Gate δ ρ ε σ) (GateAction β ρ ε α) ω where
  init := .opening D.init
  step
    | .opening d, .before b => (D.step d b).map fun r => (.opening r.1, [])
    | .opening d, .enter p => if ready d then some (.running d p (M p).init, []) else none
    | .opening _, .fail e => some (.failed e, [])
    | .running d p s, .step a => ((M p).step s a).map fun r => (.running d p r.1, r.2)
    | _, _ => none

/-- What a step of a gated machine does. -/
inductive GateEffect (D : Machine δ β κ) (ready : δ → Bool) (M : ρ → Machine σ α ω) :
    Gate δ ρ ε σ → Gate δ ρ ε σ → List ω → Prop
  | before (d : δ) (b : β) (d' : δ) (o : List κ) (hstep : D.step d b = some (d', o)) :
      GateEffect D ready M (.opening d) (.opening d') []
  | enter (d : δ) (p : ρ) (hready : ready d = true) :
      GateEffect D ready M (.opening d) (.running d p (M p).init) []
  | fail (d : δ) (e : ε) : GateEffect D ready M (.opening d) (.failed e) []
  | step (d : δ) (p : ρ) (s : σ) (a : α) (s' : σ) (o : List ω)
      (hstep : (M p).step s a = some (s', o)) :
      GateEffect D ready M (.running d p s) (.running d p s') o

section Gated

variable {D : Machine δ β κ} {ready : δ → Bool} {M : ρ → Machine σ α ω} {t o : List ω}
  {s s' : Gate δ ρ ε σ} {a : GateAction β ρ ε α}

theorem gated_effect (h : (gated D ready M).step s a = some (s', o)) :
    GateEffect D ready M s s' o := by
  cases s with
  | opening d =>
    cases a with
    | before b =>
      obtain ⟨⟨d', o'⟩, hstep, h⟩ := Option.map_eq_some_iff.mp h
      obtain ⟨rfl, rfl⟩ := Prod.mk.inj h
      exact .before d b d' o' hstep
    | enter p =>
      have h : (if ready d = true then some (Gate.running d p (M p).init, []) else none) =
          some (s', o) := h
      split_ifs at h with hready
      obtain ⟨rfl, rfl⟩ := Prod.mk.inj (Option.some.inj h)
      exact .enter d p hready
    | fail e =>
      obtain ⟨rfl, rfl⟩ := Prod.mk.inj (Option.some.inj h)
      exact .fail d e
    | step a => cases h
  | failed e => cases a <;> cases h
  | running d p c =>
    cases a with
    | before b | enter q | fail e => cases h
    | step a =>
      obtain ⟨⟨c', o'⟩, hstep, h⟩ := Option.map_eq_some_iff.mp h
      obtain ⟨rfl, rfl⟩ := Prod.mk.inj h
      exact .step d p c a c' o' hstep

/-- A step of a gated machine is a step of the staged one, or none. -/
theorem gated_stage (h : (gated D ready M).step s a = some (s', o)) :
    (s'.stage = s.stage ∧ o = []) ∨
      ∃ b, (staged M).step s.stage b = some (s'.stage, o) := by
  cases gated_effect h with
  | before d b d' o hstep => exact .inl ⟨rfl, rfl⟩
  | enter d p hready => exact .inr ⟨.enter p, rfl⟩
  | fail d e => exact .inr ⟨.fail e, rfl⟩
  | step d p c a c' o hstep => exact .inr ⟨.step a, congrArg (Option.map _) hstep⟩

/-- The run before a gated machine was entered, and its own. -/
def GateReached (D : Machine δ β κ) (ready : δ → Bool) (M : ρ → Machine σ α ω) (t : List ω) :
    Gate δ ρ ε σ → Prop
  | .opening d => t = [] ∧ ∃ u, D.Reach u d
  | .failed _ => t = []
  | .running d p s => ready d = true ∧ (∃ u, D.Reach u d) ∧ (M p).Reach t s

theorem gated_reach (h : (gated D ready M).Reach t s) : GateReached D ready M t s := by
  refine Machine.Reach.invariant (M := gated D ready M) (I := GateReached D ready M)
    ⟨rfl, [], .start⟩ (fun _ ih hstep => ?_) h
  cases gated_effect hstep with
  | before d b d' o hd =>
    obtain ⟨rfl, u, hu⟩ := ih
    exact ⟨rfl, _, hu.step hd⟩
  | enter d p hready =>
    obtain ⟨rfl, hu⟩ := ih
    exact ⟨hready, hu, .start⟩
  | fail d e => exact (List.append_nil _).trans ih.1
  | step d p c a c' o hc =>
    obtain ⟨hready, hu, hreach⟩ := ih
    exact ⟨hready, hu, hreach.step hc⟩

end Gated

end Fleet
