import Ipfusch.Machine
import Mathlib.Data.Nat.Cast.Order.Field
import Mathlib.Data.Rat.Floor
import Mathlib.Tactic.Linarith
import Mathlib.Tactic.Positivity

/-!
# Pacers

A pacer lets a writer write once for each release. A release waits for a deadline, and moves it
on by a fixed delay, whatever the time is. So a writer that was held up may catch up, but is
never ahead : the `k`-th write, from zero, comes no earlier than `k` delays after the first
deadline (`Pacer.paced`), and in any time there are no more writes than delays, plus one
(`Paced.countP_le`).
-/

/-- Each write of a pacer comes no earlier than its turn. -/
def Paced (delay start : ℕ) (times : List ℕ) : Prop :=
  ∀ (k : ℕ) (h : k < times.length), start + k * delay ≤ times[k]

section Paced

variable {delay start : ℕ} {times : List ℕ}

theorem paced_nil (delay start : ℕ) : Paced delay start [] :=
  nofun

theorem Paced.concat (h : Paced delay start times) {time : ℕ}
    (htime : start + times.length * delay ≤ time) : Paced delay start (times ++ [time]) := by
  intro k hk
  rw [List.length_append, List.length_singleton] at hk
  by_cases hlt : k < times.length
  · rw [List.getElem_append_left hlt]
    exact h k hlt
  · obtain rfl : k = times.length := by omega
    rw [List.getElem_concat_length rfl]
    exact htime

theorem Paced.of_concat {time : ℕ} (h : Paced delay start (times ++ [time])) :
    Paced delay start times ∧ start + times.length * delay ≤ time := by
  refine ⟨fun k hk => ?_, ?_⟩
  · have hle := h k (by rw [List.length_append]; omega)
    rwa [List.getElem_append_left hk] at hle
  · have hle := h times.length (by simp)
    rwa [List.getElem_concat_length rfl] at hle

/-- Within `span` of the first deadline there is a write for each delay, and one more. -/
theorem Paced.countP_le (h : Paced delay start times) (hdelay : 0 < delay) (span : ℕ) :
    (times.countP fun time => time ≤ start + span) ≤ span / delay + 1 := by
  induction times using List.reverseRecOn with
  | nil => simp
  | append_singleton times time ih =>
    obtain ⟨hpaced, htime⟩ := h.of_concat
    rw [List.countP_append]
    by_cases hle : time ≤ start + span
    · have hlength : times.length ≤ span / delay :=
        (Nat.le_div_iff_mul_le hdelay).mpr (by omega)
      have hcount : (times.countP fun time => time ≤ start + span) ≤ times.length :=
        List.countP_le_length
      simp only [List.countP_singleton, hle, decide_true, if_true]
      omega
    · simpa [hle] using ih hpaced

/-- The same for a span that is not a whole number. -/
theorem Paced.countP_le_rat (h : Paced delay start times) (hdelay : 0 < delay) {span : ℚ}
    (hspan : 0 ≤ span) :
    ((times.countP fun time : ℕ => (time : ℚ) ≤ start + span : ℕ) : ℚ) ≤ span / delay + 1 := by
  have hfloor : (times.countP fun time : ℕ => (time : ℚ) ≤ start + span) =
      times.countP fun time => time ≤ start + ⌊span⌋₊ := by
    refine List.countP_congr fun time _ => ?_
    rw [decide_eq_true_eq, decide_eq_true_eq, Nat.add_comm, ← Nat.floor_add_natCast hspan,
      Nat.le_floor_iff (by positivity), add_comm]
  have hnat : ((⌊span⌋₊ / delay : ℕ) : ℚ) ≤ span / delay :=
    Nat.cast_div_le.trans (div_le_div_of_nonneg_right (Nat.floor_le hspan) (Nat.cast_nonneg _))
  have hcount : ((times.countP fun time => time ≤ start + ⌊span⌋₊ : ℕ) : ℚ) ≤
      ((⌊span⌋₊ / delay + 1 : ℕ) : ℚ) :=
    Nat.cast_le.mpr (h.countP_le hdelay _)
  rw [hfloor]
  push_cast at hcount
  linarith

/-- If only the last write comes after a span, then there are no more writes than delays in it, plus
two. -/
theorem Paced.length_le (h : Paced delay start times) (hdelay : 0 < delay) {span : ℕ}
    (hlast : times.Pairwise fun time _ => time ≤ start + span) :
    times.length ≤ span / delay + 2 := by
  rcases Nat.lt_or_ge times.length 2 with hlt | hge
  · exact hlt.le.trans (Nat.le_add_left _ _)
  · have hlen : times.length - 2 < times.length := by omega
    have hpace := h (times.length - 2) hlen
    have hin := List.pairwise_iff_getElem.mp hlast (times.length - 2) (times.length - 1) hlen
      (by omega) (by omega)
    have hle : (times.length - 2) * delay ≤ span := by omega
    exact Nat.le_add_of_sub_le ((Nat.le_div_iff_mul_le hdelay).mpr hle)

end Paced

/-- The clock of a pacer, its deadline, and whether a release waits for its write. -/
structure Pacer where
  clock : ℕ
  next : ℕ
  released : Bool

namespace Pacer

/-- What can come next, with the clock at `now`. -/
inductive Action
  /-- Time passes. -/
  | wait (now : ℕ)
  /-- The deadline is over, and moves on. -/
  | release (now : ℕ)
  /-- A write. -/
  | write (now : ℕ)
  /-- No write comes. -/
  | skip

/-- One step of a pacer. It shows the times of the writes. -/
def step (delay : ℕ) (s : Pacer) : Action → Option (Pacer × List ℕ)
  | .wait now => if s.clock ≤ now then some ({ s with clock := now }, []) else none
  | .release now =>
    if s.released = false ∧ s.clock ≤ now ∧ s.next ≤ now then
      some ({ clock := now, next := s.next + delay, released := true }, [])
    else none
  | .write now =>
    if s.released = true ∧ s.clock ≤ now then
      some ({ s with clock := now, released := false }, [now])
    else none
  | .skip => some ({ s with released := false }, [])

/-- A pacer at its first deadline. -/
def machine (delay start : ℕ) : Machine Pacer Action ℕ where
  init := ⟨start, start, false⟩
  step := step delay

/-! ## Runs -/

section Reach

variable {delay start : ℕ} {times : List ℕ} {s : Pacer}

theorem reach_wait (hr : (machine delay start).Reach times s) {now : ℕ} (hle : s.clock ≤ now) :
    (machine delay start).Reach times { s with clock := now } := by
  have hstep : (machine delay start).step s (.wait now) = some ({ s with clock := now }, []) :=
    if_pos hle
  simpa using hr.step hstep

theorem reach_release (hr : (machine delay start).Reach times s) (hreleased : s.released = false)
    (hdue : s.next ≤ s.clock) :
    (machine delay start).Reach times { s with next := s.next + delay, released := true } := by
  have hstep : (machine delay start).step s (.release s.clock) =
      some ({ s with next := s.next + delay, released := true }, []) :=
    if_pos ⟨hreleased, le_rfl, hdue⟩
  simpa using hr.step hstep

theorem reach_write (hr : (machine delay start).Reach times s) (hreleased : s.released = true) :
    (machine delay start).Reach (times ++ [s.clock]) { s with released := false } := by
  have hstep : (machine delay start).step s (.write s.clock) =
      some ({ s with released := false }, [s.clock]) :=
    if_pos ⟨hreleased, le_rfl⟩
  exact hr.step hstep

theorem reach_skip (hr : (machine delay start).Reach times s) :
    (machine delay start).Reach times { s with released := false } := by
  have hstep : (machine delay start).step s .skip = some ({ s with released := false }, []) := rfl
  simpa using hr.step hstep

end Reach

/-- The writes are paced, the deadline is that of the next write, and what is released is due. -/
structure OnTime (delay start : ℕ) (times : List ℕ) (s : Pacer) : Prop where
  paced : Paced delay start times
  next : start + (times.length + if s.released then 1 else 0) * delay ≤ s.next
  due : s.released = true → start + times.length * delay ≤ s.clock

variable {delay start : ℕ} {times o : List ℕ} {s s' : Pacer} {a : Action}

theorem OnTime.step (h : OnTime delay start times s) (hs : step delay s a = some (s', o)) :
    OnTime delay start (times ++ o) s' := by
  have hnext := h.next
  cases a with
  | wait now =>
    simp only [Pacer.step] at hs
    split_ifs at hs with hle
    obtain ⟨rfl, rfl⟩ := Prod.mk.inj (Option.some.inj hs)
    rw [List.append_nil]
    exact ⟨h.paced, hnext, fun hreleased => (h.due hreleased).trans hle⟩
  | release now =>
    simp only [Pacer.step] at hs
    split_ifs at hs with hguard
    obtain ⟨hreleased, -, hdue⟩ := hguard
    obtain ⟨rfl, rfl⟩ := Prod.mk.inj (Option.some.inj hs)
    rw [hreleased, if_neg Bool.false_ne_true, Nat.add_zero] at hnext
    rw [List.append_nil]
    refine ⟨h.paced, ?_, fun _ => hnext.trans hdue⟩
    rw [if_pos rfl, Nat.succ_mul, ← Nat.add_assoc]
    exact Nat.add_le_add_right hnext delay
  | write now =>
    simp only [Pacer.step] at hs
    split_ifs at hs with hguard
    obtain ⟨hreleased, hle⟩ := hguard
    obtain ⟨rfl, rfl⟩ := Prod.mk.inj (Option.some.inj hs)
    rw [hreleased, if_pos rfl] at hnext
    refine ⟨h.paced.concat ((h.due hreleased).trans hle), ?_, nofun⟩
    rw [List.length_append, List.length_singleton]
    exact hnext
  | skip =>
    obtain ⟨rfl, rfl⟩ := Prod.mk.inj (Option.some.inj hs)
    rw [List.append_nil]
    refine ⟨h.paced, le_trans ?_ hnext, nofun⟩
    exact Nat.add_le_add_left (Nat.mul_le_mul_right _ (Nat.le_add_right _ _)) _

/-- After every run of a pacer, each write came no earlier than its turn. -/
theorem paced (hr : (machine delay start).Reach times s) : Paced delay start times := by
  have hontime : OnTime delay start times s :=
    hr.invariant ⟨paced_nil _ _, by simp [machine], nofun⟩ fun _ h hs => h.step hs
  exact hontime.paced

end Pacer
