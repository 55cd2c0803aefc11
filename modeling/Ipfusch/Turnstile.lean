import Ipfusch.Machine
import Mathlib.Data.List.Count

/-!
# Turnstiles

A turnstile of a capacity lets one enter as long as fewer than that are inside, and lets any that
is inside leave. So there are never more inside than the capacity (`reach_le`), and inside are
those that entered and did not leave (`reach_count`).
-/

namespace Turnstile

/-- One goes through. -/
inductive Move
  | enter
  | leave
  deriving DecidableEq, Repr

/-- The number inside after a move. -/
def move (capacity inside : ℕ) : Move → Option (ℕ × List Move)
  | .enter => if inside < capacity then some (inside + 1, [.enter]) else none
  | .leave => if 0 < inside then some (inside - 1, [.leave]) else none

/-- The turnstile, with none inside at the start. -/
def turnstile (capacity : ℕ) : Machine ℕ Move Move where
  init := 0
  step := move capacity

variable {capacity inside inside' : ℕ} {t : List Move}

theorem enter (h : inside < capacity) :
    (turnstile capacity).step inside .enter = some (inside + 1, [.enter]) :=
  if_pos h

theorem leave : (turnstile capacity).step (inside + 1) .leave = some (inside, [.leave]) := by
  simp [turnstile, move]

/-- Both moves, by the numbers inside. -/
theorem move_cases {a : Move} {o : List Move} (h : move capacity inside a = some (inside', o)) :
    o = [a] ∧ ((a = .enter ∧ inside < capacity ∧ inside' = inside + 1) ∨
      (a = .leave ∧ inside = inside' + 1)) := by
  cases a with
  | enter =>
    obtain ⟨hlt, h⟩ := Option.ite_none_right_eq_some.mp h
    obtain ⟨rfl, rfl⟩ := Prod.mk.inj (Option.some.inj h)
    exact ⟨rfl, Or.inl ⟨rfl, hlt, rfl⟩⟩
  | leave =>
    obtain ⟨hpos, h⟩ := Option.ite_none_right_eq_some.mp h
    obtain ⟨rfl, rfl⟩ := Prod.mk.inj (Option.some.inj h)
    exact ⟨rfl, Or.inr ⟨rfl, (Nat.sub_add_cancel hpos).symm⟩⟩

/-- There are never more inside than the capacity. -/
theorem reach_le (h : (turnstile capacity).Reach t inside) : inside ≤ capacity := by
  refine h.invariant (I := fun _ inside => inside ≤ capacity) capacity.zero_le fun _ hle hs => ?_
  obtain ⟨-, ⟨-, hlt, rfl⟩ | ⟨-, rfl⟩⟩ := move_cases hs
  · exact hlt
  · omega

/-- Those that entered are inside or have left. -/
theorem reach_count (h : (turnstile capacity).Reach t inside) :
    t.count .enter = inside + t.count .leave := by
  refine h.invariant (I := fun t inside => t.count .enter = inside + t.count .leave) rfl
    fun _ hcount hs => ?_
  obtain ⟨rfl, ⟨rfl, -, rfl⟩ | ⟨rfl, rfl⟩⟩ := move_cases hs
  · rw [List.count_append, List.count_append, hcount]
    simp
    omega
  · rw [List.count_append, List.count_append, hcount]
    simp
    omega

end Turnstile
