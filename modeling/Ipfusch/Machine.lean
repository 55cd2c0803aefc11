import Mathlib.Data.List.Basic

/-!
# Machines with observations

A `Machine` is a start state and a step function. A step takes an action, which
carries everything the environment decides, and yields the next state and what
the step shows. A step that is not possible is `none`.

`Machine.Reach` is a run seen from its end : the trace shown so far and the
state reached. `Reach.invariant` is the induction rule for properties of both.
`Machine.exec` runs a list of actions, and `reach_exec` makes each such run a
`Reach`, so that a run on given actions can be computed. `exec_measure` bounds the number
of steps of a kind by a measure that they lower.

`ReachWhile P` are the runs whose steps all meet a condition `P` on the state before the
step and the action.

`Reach.project` is stuttering simulation by a function : if each step of `M` is
matched by one step of `N` or by none, a run of `M` shows a run of `N`, and so for the runs
under a condition. In `Reach.simulate` the two need to show the same only in part.
-/

/-- A start state and a step function with observations. -/
structure Machine (σ α ω : Type*) where
  /-- The start state. -/
  init : σ
  /-- The next state and what the step shows, or `none` if the step is not possible. -/
  step : σ → α → Option (σ × List ω)

namespace Machine

variable {σ α ω σ' α' ω' : Type*}

/-- A run of `M` : the trace it has shown and the state it has reached. -/
inductive Reach (M : Machine σ α ω) : List ω → σ → Prop
  | start : Reach M [] M.init
  | step {t s a s' o} : Reach M t s → M.step s a = some (s', o) → Reach M (t ++ o) s'

variable {M : Machine σ α ω} {N : Machine σ' α' ω'}

/-- A property of trace and state that holds at the start and is kept by each step of a
run holds of every run. -/
theorem Reach.invariant {I : List ω → σ → Prop} (h0 : I [] M.init)
    (hs : ∀ {t s a s' o}, M.Reach t s → I t s → M.step s a = some (s', o) → I (t ++ o) s')
    {t : List ω} {s : σ} (h : M.Reach t s) : I t s := by
  induction h with
  | start => exact h0
  | step hr hst ih => exact hs hr ih hst

/-- Run a list of actions from a state. -/
def exec (M : Machine σ α ω) : σ → List α → Option (σ × List ω)
  | s, [] => some (s, [])
  | s, a :: as =>
    match M.step s a with
    | none => none
    | some (s', o) => (exec M s' as).map fun r => (r.1, o ++ r.2)

theorem exec_cons {s s' : σ} {a : α} {as : List α} {t : List ω}
    (he : M.exec s (a :: as) = some (s', t)) : ∃ s₁ o t₁, M.step s a = some (s₁, o) ∧
      M.exec s₁ as = some (s', t₁) ∧ t = o ++ t₁ := by
  cases hst : M.step s a with
  | none => simp [Machine.exec, hst] at he
  | some r =>
    simp only [Machine.exec, hst, Option.map_eq_some_iff, Prod.mk.injEq] at he
    obtain ⟨⟨s₁, t₁⟩, he, rfl, rfl⟩ := he
    exact ⟨r.1, r.2, t₁, rfl, he, rfl⟩

theorem Reach.exec {t t' : List ω} {s s' : σ} {as : List α} (h : M.Reach t s)
    (he : M.exec s as = some (s', t')) : M.Reach (t ++ t') s' := by
  induction as generalizing s t t' with
  | nil =>
    simp only [Machine.exec, Option.some.injEq, Prod.mk.injEq] at he
    obtain ⟨rfl, rfl⟩ := he
    simpa using h
  | cons a as ih =>
    cases hst : M.step s a with
    | none => simp [Machine.exec, hst] at he
    | some r =>
      simp only [Machine.exec, hst, Option.map_eq_some_iff, Prod.mk.injEq] at he
      obtain ⟨⟨s₁, t₁⟩, he, rfl, rfl⟩ := he
      rw [← List.append_assoc]
      exact ih (h.step hst) he

/-- A list of actions that can be run is a run. -/
theorem reach_exec {t : List ω} {s : σ} {as : List α} (he : M.exec M.init as = some (s, t)) :
    M.Reach t s := by
  simpa using Reach.start.exec he

/-- If each step that counts lowers a measure, and no other step raises it, then at most so many
steps that count are taken. -/
theorem exec_measure {P : α → Prop} {I : σ → Prop} (μ : σ → ℕ) (c : α → Bool)
    (hs : ∀ {s a s' o}, I s → P a → M.step s a = some (s', o) →
      I s' ∧ μ s' + (if c a = true then 1 else 0) ≤ μ s)
    {s s' : σ} {as : List α} {t : List ω} (hI : I s) (hP : ∀ a ∈ as, P a)
    (he : M.exec s as = some (s', t)) : I s' ∧ as.countP c + μ s' ≤ μ s := by
  induction as generalizing s t with
  | nil =>
    obtain ⟨rfl, -⟩ := Prod.mk.inj (Option.some.inj he)
    exact ⟨hI, Nat.le_of_eq (Nat.zero_add _)⟩
  | cons a as ih =>
    obtain ⟨s₁, o, t₁, hstep, he, -⟩ := exec_cons he
    obtain ⟨hI', hle⟩ := hs hI (hP a List.mem_cons_self) hstep
    obtain ⟨hI'', hcount⟩ := ih hI' (fun b hb => hP b (List.mem_cons_of_mem a hb)) he
    refine ⟨hI'', ?_⟩
    rw [List.countP_cons]
    omega

/-! ## Runs under a condition -/

/-- A run whose steps all meet the condition `P`. -/
inductive ReachWhile (M : Machine σ α ω) (P : σ → α → Prop) : List ω → σ → Prop
  | start : ReachWhile M P [] M.init
  | step {t s a s' o} : ReachWhile M P t s → P s a → M.step s a = some (s', o) →
      ReachWhile M P (t ++ o) s'

theorem ReachWhile.invariant {P : σ → α → Prop} {I : List ω → σ → Prop} (h0 : I [] M.init)
    (hs : ∀ {t s a s' o}, I t s → P s a → M.step s a = some (s', o) → I (t ++ o) s')
    {t : List ω} {s : σ} (h : M.ReachWhile P t s) : I t s := by
  induction h with
  | start => exact h0
  | step _ hp hst ih => exact hs ih hp hst

/-- A run under a condition is a run. -/
theorem ReachWhile.reach {P : σ → α → Prop} {t : List ω} {s : σ} (h : M.ReachWhile P t s) :
    M.Reach t s := by
  induction h with
  | start => exact .start
  | step _ _ hst ih => exact ih.step hst

/-- Under a condition that every step meets, each run is one. -/
theorem Reach.reachWhile {P : σ → α → Prop} {t : List ω} {s : σ} (h : M.Reach t s)
    (hP : ∀ s a, P s a) : M.ReachWhile P t s := by
  induction h with
  | start => exact .start
  | step _ hst ih => exact ih.step (hP _ _) hst

/-- Run a list of actions from a state, as long as a condition is met. -/
def execWhile (M : Machine σ α ω) (P : σ → α → Prop) [∀ s a, Decidable (P s a)] :
    σ → List α → Option (σ × List ω)
  | s, [] => some (s, [])
  | s, a :: as =>
    if P s a then
      match M.step s a with
      | none => none
      | some (s', o) => (execWhile M P s' as).map fun r => (r.1, o ++ r.2)
    else none

theorem ReachWhile.execWhile {P : σ → α → Prop} [∀ s a, Decidable (P s a)] {t t' : List ω}
    {s s' : σ} {as : List α} (h : M.ReachWhile P t s)
    (he : M.execWhile P s as = some (s', t')) : M.ReachWhile P (t ++ t') s' := by
  induction as generalizing s t t' with
  | nil =>
    simp only [Machine.execWhile, Option.some.injEq, Prod.mk.injEq] at he
    obtain ⟨rfl, rfl⟩ := he
    simpa using h
  | cons a as ih =>
    by_cases hp : P s a
    · cases hst : M.step s a with
      | none => simp [Machine.execWhile, hp, hst] at he
      | some r =>
        simp only [Machine.execWhile, hp, hst, if_true, Option.map_eq_some_iff,
          Prod.mk.injEq] at he
        obtain ⟨⟨s₁, t₁⟩, he, rfl, rfl⟩ := he
        rw [← List.append_assoc]
        exact ih (h.step hp hst) he
    · simp [Machine.execWhile, hp] at he

/-! ## Simulation -/

/-- Stuttering simulation by a function `f` on states. If each step of `M` that meets the
condition shows, through `g`, a step of `N` or nothing, then a run of `M` under the condition
shows a run of `N`. -/
theorem ReachWhile.project {P : σ → α → Prop} (f : σ → σ') (g : ω → Option ω')
    (h0 : f M.init = N.init)
    (hs : ∀ {t s a s' o}, M.ReachWhile P t s → P s a → M.step s a = some (s', o) →
      (f s' = f s ∧ o.filterMap g = []) ∨ ∃ a', N.step (f s) a' = some (f s', o.filterMap g))
    {t : List ω} {s : σ} (h : M.ReachWhile P t s) : N.Reach (t.filterMap g) (f s) := by
  induction h with
  | start => simpa [h0] using Reach.start (M := N)
  | @step t s a s' o hr hp hst ih =>
    rw [List.filterMap_append]
    rcases hs hr hp hst with ⟨hf, ho⟩ | ⟨a', hN⟩
    · simpa [hf, ho] using ih
    · exact ih.step hN

/-- The same for all runs. -/
theorem Reach.project (f : σ → σ') (g : ω → Option ω') (h0 : f M.init = N.init)
    (hs : ∀ {t s a s' o}, M.Reach t s → M.step s a = some (s', o) →
      (f s' = f s ∧ o.filterMap g = []) ∨ ∃ a', N.step (f s) a' = some (f s', o.filterMap g))
    {t : List ω} {s : σ} (h : M.Reach t s) : N.Reach (t.filterMap g) (f s) :=
  (h.reachWhile fun _ _ => trivial).project f g h0 fun hr _ hst => hs hr.reach hst

/-- The same with a relation between the states, and conditions on both sides. -/
theorem ReachWhile.relate {P : σ → α → Prop} {Q : σ' → α' → Prop} (R : σ → σ' → Prop)
    (g : ω → Option ω') (h0 : R M.init N.init)
    (hs : ∀ {s u a s' o}, R s u → P s a → M.step s a = some (s', o) →
      (R s' u ∧ o.filterMap g = []) ∨
        ∃ a' u', Q u a' ∧ N.step u a' = some (u', o.filterMap g) ∧ R s' u')
    {t : List ω} {s : σ} (h : M.ReachWhile P t s) :
    ∃ u, N.ReachWhile Q (t.filterMap g) u ∧ R s u := by
  induction h with
  | start => exact ⟨N.init, .start, h0⟩
  | @step t s a s' o _ hp hst ih =>
    obtain ⟨u, hreach, hrel⟩ := ih
    rw [List.filterMap_append]
    rcases hs hrel hp hst with ⟨hrel', ho⟩ | ⟨a', u', hq, hN, hrel'⟩
    · exact ⟨u, by rwa [ho, List.append_nil], hrel'⟩
    · exact ⟨u', hreach.step hq hN, hrel'⟩

/-- The same if only a part of what the steps show agrees. -/
theorem Reach.simulate {γ : Type*} (f : σ → σ') (p : ω → Option γ) (q : ω' → Option γ)
    (h0 : f M.init = N.init)
    (hs : ∀ {s a s' o}, M.step s a = some (s', o) →
      (f s' = f s ∧ o.filterMap p = []) ∨
        ∃ a' o', N.step (f s) a' = some (f s', o') ∧ o'.filterMap q = o.filterMap p)
    {t : List ω} {s : σ} (h : M.Reach t s) :
    ∃ t', N.Reach t' (f s) ∧ t'.filterMap q = t.filterMap p := by
  induction h with
  | start => exact ⟨[], h0 ▸ .start, rfl⟩
  | @step t s a s' o _ hst ih =>
    obtain ⟨t', hreach, heq⟩ := ih
    rw [List.filterMap_append]
    rcases hs hst with ⟨hf, ho⟩ | ⟨a', o', hN, hsame⟩
    · exact ⟨t', hf ▸ hreach, by rw [ho, List.append_nil, heq]⟩
    · exact ⟨t' ++ o', hreach.step hN, by rw [List.filterMap_append, heq, hsame]⟩

end Machine
